import Mathlib.Data.FinEnum
import PoaBridge.Contracts.Deposits
import PoaBridge.Contracts.Token

/-!
# `ForeignBridge` with its `BridgeableToken`

The two contracts call one another.  `approveAndCall` of the token calls
`receiveApproval` of the spender, and when the spender is the bridge, the bridge
calls `transferFrom` of the token.  Any other spender may run code of its own, so
a transaction is a tree: `Call.approveAndCall` carries the calls that the spender
makes.  Such a call that reverts is caught and leaves no trace.

The two contracts make no other calls, so whoever calls from outside is neither
of them; this is what `Deployment.External` says.  No other address has a token.

The abstract side is a custodian with its ledger.  A call follows a list of
actions on the ledger (`exec_follows`): the withdrawals are what the bridge
locks, and the deposits are what it releases.  `withdrawals_backed` is the result
for every run.
-/

namespace PoaBridge.Contracts

/-- The addresses of the two contracts. -/
structure Deployment where
  bridge : Address
  token : Address
  distinct : bridge ≠ token

/-- Neither of the two contracts. -/
def Deployment.External (deployment : Deployment) (a : Address) : Prop :=
  a ≠ deployment.bridge ∧ a ≠ deployment.token

/-- A sender of transactions, or a contract of somebody else. -/
def Deployment.User (deployment : Deployment) : Type := { a : Address // deployment.External a }

/-- The EVM and the two contracts. -/
structure CustodyEnv (Digest : Type) extends Evm Digest, Deployment

/-- The token as the bridge sees it.  At other addresses there is no token. -/
def erc20 (address : Address) : ERC20 BridgeableToken where
  transfer token sender target value self :=
    if token = address then self.transfer sender target value else none
  transferFrom token sender source target value self :=
    if token = address then self.transferFrom sender source target value else none
  allowance token owner spender self :=
    if token = address then some (self.allowance owner spender) else none

variable {Digest : Type}

/-- The environment of the bridge. -/
def CustodyEnv.foreign (env : CustodyEnv Digest) : ForeignEnv Digest BridgeableToken where
  toEvm := env.toEvm
  bridge := env.bridge
  erc20 := erc20 env.token

/-! ## What the events stand for -/

/-- The amount that the bridge locks with the event. -/
def TokenEvent.withdrawal? : TokenEvent → Option (Address × ℕ)
  | .withdraw recipient value _ => some (recipient, value.toNat)
  | _ => none

/-- The amount that the bridge releases with the event. -/
def TokenEvent.deposit? : TokenEvent → Option (Address × ℕ)
  | .deposit recipient value => some (recipient, value.toNat)
  | _ => none

namespace ForeignContract

/-- The `Withdraw` events so far. -/
def withdrawals (self : ForeignContract Digest) : List (Address × ℕ) :=
  self.tokenLogs.filterMap TokenEvent.withdrawal?

/-- The `Deposit` events so far. -/
def deposits (self : ForeignContract Digest) : List (Address × ℕ) :=
  self.tokenLogs.filterMap TokenEvent.deposit?

theorem withdrawals_append {bridge bridge' : ForeignContract Digest} {events : List TokenEvent}
    (h : bridge'.tokenLogs = bridge.tokenLogs ++ events) :
    bridge'.withdrawals = bridge.withdrawals ++ events.filterMap TokenEvent.withdrawal? := by
  unfold withdrawals
  rw [h, List.filterMap_append]

theorem deposits_append {bridge bridge' : ForeignContract Digest} {events : List TokenEvent}
    (h : bridge'.tokenLogs = bridge.tokenLogs ++ events) :
    bridge'.deposits = bridge.deposits ++ events.filterMap TokenEvent.deposit? := by
  unfold deposits
  rw [h, List.filterMap_append]

end ForeignContract

/-- What the bridge received. -/
def Receipt.entry (receipt : Receipt BridgeableToken) : Address × ℕ :=
  (receipt.source, receipt.value.toNat)

/-- Exactly the value moved from another account to the bridge. -/
structure Receipt.Exact (bridge : Address) (receipt : Receipt BridgeableToken) : Prop where
  source : receipt.source ≠ bridge
  covered : receipt.value.toNat ≤ receipt.before.ledger receipt.source
  ledger : receipt.after.ledger
    = Ledger.transfer receipt.before.ledger receipt.source bridge receipt.value.toNat
  totalSupply : receipt.after.totalSupply = receipt.before.totalSupply

namespace Custody

/-! ## Transactions -/

/-- The storage of the two contracts. -/
abbrev Chain (Digest : Type) := ForeignChain Digest BridgeableToken

/-- A transaction, or a call that the code of a spender makes.  For
`approveAndCall`, `code` are the calls of the spender, and `accepts` is whether
it returns. -/
inductive Call (deployment : Deployment) where
  | token (sender : deployment.User) (call : BridgeableToken.Call)
  | approveAndCall (sender : deployment.User) (spender : Address) (tokens : U256)
      (code : List (Call deployment)) (accepts : Bool)
  | bridge (call : ForeignChain.Call) (external : deployment.External call.sender)

/-- The two contracts after their deployment. -/
def deploy (requiredSignatures : Nat) (authorities : List Address) (owner : Address) :
    Option (Chain Digest) :=
  ForeignChain.deploy requiredSignatures authorities (BridgeableToken.deploy owner)

/-- `allowed[sender][spender] = tokens` of `approveAndCall`. -/
def approve (self : Chain Digest) (sender spender : Address) (tokens : U256) : Chain Digest :=
  { self with tokens := self.tokens.setAllowed sender spender tokens }

section Calls

variable [DecidableEq Digest]

mutual

/-- One call; `none` is a revert. -/
def exec (env : CustodyEnv Digest) (self : Chain Digest) :
    Call env.toDeployment → Option (Chain Digest)
  | .token sender call => do
    let tokens ← self.tokens.call sender.val call
    return { self with tokens := tokens }
  | .approveAndCall sender spender tokens code accepts => do
    let self := approve self sender.val spender tokens
    if spender = env.bridge then
      self.receiveApproval env.foreign env.token sender.val tokens
    else if spender = env.token then
      -- the token has neither a `receiveApproval` nor a fallback function
      none
    else do
      require (accepts = true)
      return execAll env self code
  | .bridge call _ => self.exec env.foreign call

/-- A list of calls.  A reverted one changes nothing. -/
def execAll (env : CustodyEnv Digest) (self : Chain Digest) :
    List (Call env.toDeployment) → Chain Digest
  | [] => self
  | call :: calls => execAll env ((exec env self call).getD self) calls

end

/-- A reverted transaction changes nothing. -/
def step (env : CustodyEnv Digest) (self : Chain Digest) (call : Call env.toDeployment) :
    Chain Digest :=
  (exec env self call).getD self

/-- The chain after a list of transactions. -/
def run (env : CustodyEnv Digest) (self : Chain Digest) (calls : List (Call env.toDeployment)) :
    Chain Digest :=
  calls.foldl (step env) self

end Calls

/-! ## The custodian -/

/-- The invariant: nobody may spend for the bridge, and every `Withdraw` event
comes from an exact receipt. -/
structure Sound (env : CustodyEnv Digest) (chain : Chain Digest) : Prop where
  unspendable : chain.tokens.Unspendable env.bridge
  exact : ∀ receipt ∈ chain.receipts, receipt.Exact env.bridge
  events : chain.bridge.withdrawals = chain.receipts.map Receipt.entry

/-- The actions of the custodian between two states of the chain.  The
withdrawals are locked, and the deposits are released. -/
structure Follows (env : CustodyEnv Digest) (chain chain' : Chain Digest)
    (actions : List (Ledger.Action Address)) : Prop where
  ledger : Ledger.run env.bridge chain.tokens.state actions = some chain'.tokens.state
  withdrawals : chain'.bridge.withdrawals = chain.bridge.withdrawals ++ Ledger.locks actions
  deposits : chain'.bridge.deposits = chain.bridge.deposits ++ Ledger.releases actions

section Steps

variable {env : CustodyEnv Digest} {chain middle chain' : Chain Digest}

theorem Follows.refl : Follows env chain chain [] :=
  ⟨rfl, (List.append_nil _).symm, (List.append_nil _).symm⟩

theorem Follows.trans {before after : List (Ledger.Action Address)}
    (h : Follows env chain middle before) (h' : Follows env middle chain' after) :
    Follows env chain chain' (before ++ after) := by
  refine ⟨Ledger.run_append h.ledger h'.ledger, ?_, ?_⟩
  · rw [h'.withdrawals, h.withdrawals, Ledger.locks_append, List.append_assoc]
  · rw [h'.deposits, h.deposits, Ledger.releases_append, List.append_assoc]

/-- A call keeps the invariant and follows the custodian. -/
def Safe (env : CustodyEnv Digest) (chain chain' : Chain Digest) : Prop :=
  Sound env chain' ∧ ∃ actions, Follows env chain chain' actions

theorem Safe.refl (h : Sound env chain) : Safe env chain chain := ⟨h, [], .refl⟩

theorem Safe.trans (h : Safe env chain middle) (h' : Safe env middle chain') :
    Safe env chain chain' := by
  obtain ⟨-, before, hbefore⟩ := h
  obtain ⟨hsound, after, hafter⟩ := h'
  exact ⟨hsound, before ++ after, hbefore.trans hafter⟩

/-- The tokens change without the bridge. -/
theorem Safe.of_moves (h : Sound env chain) {tokens : BridgeableToken}
    (hunspendable : tokens.Unspendable env.bridge)
    (hmoves : BridgeableToken.Moves env.bridge chain.tokens tokens) :
    Safe env chain { chain with tokens := tokens } := by
  obtain ⟨actions, hrun, hlocks, hreleases⟩ := hmoves
  refine ⟨⟨hunspendable, h.exact, h.events⟩, actions, hrun, ?_, ?_⟩
  · rw [hlocks, List.append_nil]
  · rw [hreleases, List.append_nil]

theorem safe_approve (h : Sound env chain) (sender : env.User) (spender : Address)
    (tokens : U256) : Safe env chain (approve chain sender.val spender tokens) :=
  .of_moves h (h.unspendable.setAllowed sender.property.1 spender tokens) (.of_eq rfl)

/-- The bridge takes the tokens of a user. -/
theorem safe_receiveApproval (h : Sound env chain) {sender source : Address} {value : U256}
    (hsource : source ≠ env.bridge)
    (hcall : chain.receiveApproval env.foreign sender source value = some chain') :
    Safe env chain chain' := by
  have hdone := ForeignChain.receiveApproval_cases hcall
  have hmoved : BridgeableToken.TransferredFrom chain.tokens env.bridge source env.bridge value
      chain'.tokens := by
    have hexecuted := hdone.executed
    change (if chain.bridge.erc20token = env.token then _ else none) = _ at hexecuted
    split at hexecuted
    · exact BridgeableToken.transferFrom_eq_some hexecuted
    · cases hexecuted
  have hlogs : chain'.bridge.tokenLogs = chain.bridge.tokenLogs
      ++ [.withdraw source value chain.bridge.homeGasPrice] := by
    rw [hdone.bridge]
    rfl
  have hwithdrawals := ForeignContract.withdrawals_append hlogs
  refine ⟨⟨hmoved.unspendable h.unspendable, ?_, ?_⟩, [.lock source value.toNat], ?_,
    hwithdrawals, ForeignContract.deposits_append hlogs⟩
  · intro receipt hmem
    rw [hdone.receipts, List.mem_append, List.mem_singleton] at hmem
    rcases hmem with hmem | heq
    · exact h.exact receipt hmem
    · rw [heq]
      exact ⟨hsource, hmoved.covered hsource, hmoved.ledger hsource, hmoved.totalSupply⟩
  · rw [hwithdrawals, hdone.receipts, List.map_append, h.events]
    rfl
  · apply Ledger.run_singleton
    apply (Ledger.apply_lock hsource (hmoved.covered hsource)).trans
    unfold BridgeableToken.state
    rw [hmoved.ledger hsource, hmoved.totalSupply]

/-- The vote on the token and the collection of signatures move no tokens. -/
theorem safe_of_logs (h : Sound env chain) {events : List TokenEvent}
    (htokens : chain'.tokens = chain.tokens) (hreceipts : chain'.receipts = chain.receipts)
    (hlogs : chain'.bridge.tokenLogs = chain.bridge.tokenLogs ++ events)
    (hevents : ∀ event ∈ events, event.withdrawal? = none ∧ event.deposit? = none) :
    Safe env chain chain' := by
  have hwithdrawals := ForeignContract.withdrawals_append hlogs
  have hdeposits := ForeignContract.deposits_append hlogs
  rw [List.filterMap_eq_nil_iff.2 fun event hmem => (hevents event hmem).1] at hwithdrawals
  rw [List.filterMap_eq_nil_iff.2 fun event hmem => (hevents event hmem).2] at hdeposits
  refine ⟨⟨?_, ?_, ?_⟩, [], ?_, hwithdrawals, hdeposits⟩
  · rw [htokens]
    exact h.unspendable
  · rw [hreceipts]
    exact h.exact
  · rw [hwithdrawals, hreceipts, List.append_nil, h.events]
  · rw [htokens]
    rfl

/-- Only the token itself can call `receiveApproval`. -/
theorem receiveApproval_external {sender source : Address} {value : U256}
    (hsender : sender ≠ env.token) :
    chain.receiveApproval env.foreign sender source value = none := by
  cases hcall : chain.receiveApproval env.foreign sender source value with
  | none => rfl
  | some chain' =>
    have hdone := ForeignChain.receiveApproval_cases hcall
    have hexecuted := hdone.executed
    change (if chain.bridge.erc20token = env.token then _ else none) = _ at hexecuted
    split at hexecuted
    · rename_i htoken
      exact absurd (hdone.sender.trans htoken) hsender
    · cases hexecuted

variable [DecidableEq Digest]

/-- The bridge pays a deposit, or waits for more confirmations. -/
theorem safe_deposit (h : Sound env chain) {sender : Address} {payout : Truffle.Payout}
    (hcall : chain.deposit env.foreign sender payout = some chain') :
    Safe env chain chain' := by
  have hdone := ForeignChain.deposit_cases hcall
  have hlogs := hdone.logs
  by_cases hreached : chain.bridge.numDepositsSigned (env.foreign.hashMsg payout) + 1
      = chain.bridge.requiredSignatures
  · have hexecuted := hdone.executed hreached
    change (if chain.bridge.erc20token = env.token then _ else none) = _ at hexecuted
    split at hexecuted
    · have htransfer : chain.tokens.transfer env.bridge payout.recipient payout.value
          = some chain'.tokens := hexecuted
      obtain ⟨hle, hledger, hsupply, hallowed⟩ := BridgeableToken.transfer_eq_some htransfer
      rw [if_pos hreached] at hlogs
      have hwithdrawals := ForeignContract.withdrawals_append hlogs
      refine ⟨⟨h.unspendable.congr hallowed, ?_, ?_⟩,
        [.release payout.recipient payout.value.toNat], ?_, hwithdrawals,
        ForeignContract.deposits_append hlogs⟩
      · rw [hdone.receipts]
        exact h.exact
      · rw [hwithdrawals, hdone.receipts, ← h.events]
        exact List.append_nil _
      · apply Ledger.run_singleton
        apply (Ledger.apply_release hle).trans
        unfold BridgeableToken.state
        rw [hledger, hsupply]
    · cases hexecuted
  · rw [if_neg hreached] at hlogs
    have htokens := hdone.pending hreached
    have hwithdrawals := ForeignContract.withdrawals_append hlogs
    refine ⟨⟨?_, ?_, ?_⟩, [], ?_, hwithdrawals, ForeignContract.deposits_append hlogs⟩
    · rw [htokens]
      exact h.unspendable
    · rw [hdone.receipts]
      exact h.exact
    · rw [hwithdrawals, hdone.receipts, ← h.events]
      exact List.append_nil _
    · rw [htokens]
      rfl

/-- A call of the bridge from outside. -/
theorem safe_bridge (h : Sound env chain) {call : ForeignChain.Call}
    (hexternal : env.External call.sender) (hcall : chain.exec env.foreign call = some chain') :
    Safe env chain chain' := by
  cases call with
  | setTokenAddress sender token =>
    obtain ⟨bridge, hbridge, hcall⟩ := Option.bind_eq_some_iff.1 hcall
    rw [← Option.some.inj hcall]
    unfold ForeignContract.setTokenAddress at hbridge
    simp only [require_bind_eq_some] at hbridge
    obtain ⟨-, -, hbridge⟩ := hbridge
    split at hbridge
    all_goals rw [← Option.some.inj hbridge]
    · have hlogs : chain.bridge.tokenLogs ++ [.tokenAddress token]
          = chain.bridge.tokenLogs ++ [.tokenAddress token] := rfl
      refine safe_of_logs h rfl rfl hlogs ?_
      intro event hmem
      rw [List.mem_singleton.1 hmem]
      exact ⟨rfl, rfl⟩
    · exact safe_of_logs h rfl rfl (List.append_nil _).symm fun event hmem => nomatch hmem
  | deposit sender payout => exact safe_deposit h hcall
  | receiveApproval sender source value =>
    have hnone : chain.receiveApproval env.foreign sender source value = none :=
      receiveApproval_external hexternal.2
    rw [ForeignChain.exec, hnone] at hcall
    cases hcall
  | submitSignature submission =>
    obtain ⟨collection, hcollection, hcall⟩ := Option.bind_eq_some_iff.1 hcall
    rw [← Option.some.inj hcall]
    exact safe_of_logs h rfl rfl (List.append_nil _).symm fun event hmem => nomatch hmem

mutual

/-- A call with everything below it keeps the invariant and follows the
custodian. -/
theorem exec_safe {chain chain' : Chain Digest} (h : Sound env chain) :
    ∀ call, exec env chain call = some chain' → Safe env chain chain'
  | .token sender call, hcall => by
    rw [exec] at hcall
    obtain ⟨tokens, htokens, hcall⟩ := Option.bind_eq_some_iff.1 hcall
    rw [← Option.some.inj hcall]
    obtain ⟨hunspendable, hmoves⟩ :=
      BridgeableToken.call_spec sender.property.1 h.unspendable htokens
    exact .of_moves h hunspendable hmoves
  | .approveAndCall sender spender tokens code accepts, hcall => by
    have happroved := safe_approve h sender spender tokens
    rw [exec] at hcall
    split at hcall
    · exact happroved.trans (safe_receiveApproval happroved.1 sender.property.1 hcall)
    · split at hcall
      · cases hcall
      · rw [require_bind_eq_some] at hcall
        rw [← Option.some.inj hcall.2]
        exact happroved.trans (execAll_safe happroved.1 code)
  | .bridge call hexternal, hcall => by
    rw [exec] at hcall
    exact safe_bridge h hexternal hcall

theorem execAll_safe {chain : Chain Digest} (h : Sound env chain) :
    ∀ calls, Safe env chain (execAll env chain calls)
  | [] => by
    rw [execAll]
    exact .refl h
  | call :: calls => by
    rw [execAll]
    cases hcall : exec env chain call with
    | none => exact execAll_safe h calls
    | some chain' =>
      have hfirst := exec_safe h call hcall
      exact hfirst.trans (execAll_safe hfirst.1 calls)

end

/-- Every run follows the custodian. -/
theorem run_safe (h : Sound env chain) (calls : List (Call env.toDeployment)) :
    Safe env chain (run env chain calls) := by
  have hstep : ∀ middle call, Safe env chain middle → Safe env chain (step env middle call) := by
    intro middle call hmiddle
    unfold step
    cases hcall : exec env middle call with
    | none => exact hmiddle
    | some chain' => exact hmiddle.trans (exec_safe hmiddle.1 call hcall)
  exact Runs.foldl_of_step hstep calls (.refl h)

end Steps

/-- The contracts after their deployment. -/
theorem deploy_sound {env : CustodyEnv Digest} {requiredSignatures : Nat}
    {authorities : List Address} {owner : Address} {start : Chain Digest}
    (h : deploy requiredSignatures authorities owner = some start) :
    Sound env start ∧ start.tokens = BridgeableToken.deploy owner := by
  obtain ⟨bridge, hbridge, h⟩ := Option.bind_eq_some_iff.1 h
  obtain ⟨collection, -, hbridge⟩ := Option.bind_eq_some_iff.1 hbridge
  rw [← Option.some.inj h, ← Option.some.inj hbridge]
  exact ⟨⟨fun _ => rfl, fun _ hmem => absurd hmem List.not_mem_nil, rfl⟩, rfl⟩

/-- Before the first payment the events say nothing about amounts. -/
theorem amounts_of_tokenAddress {bridge : ForeignContract Digest} {token : Address}
    (h : bridge.tokenLogs = [.tokenAddress token]) :
    bridge.withdrawals = [] ∧ bridge.deposits = [] := by
  unfold ForeignContract.withdrawals ForeignContract.deposits
  rw [h]
  exact ⟨rfl, rfl⟩

variable [DecidableEq Digest]

/-- The tokens behind the withdrawals, for every deployment of the two contracts
and every sequence of transactions by any users.

From any moment when the token is set and nothing has been paid, the bridge holds
what it held then and what was withdrawn, up to what was deposited.  The balances
add up to the supply.  Every `Withdraw` event comes from an exact receipt.  A
`receiveApproval` that fails takes the approval with it, and a direct call of it
always fails; in both cases nothing changes, in whatever state it is made. -/
theorem withdrawals_backed (env : CustodyEnv Digest) (requiredSignatures : Nat)
    (authorities : List Address) (owner : Address) (start : Chain Digest)
    (hdeploy : deploy requiredSignatures authorities owner = some start)
    (calls : List (Call env.toDeployment)) :
    let chain := run env start calls
    (∀ before after, calls = before ++ after →
      let set := run env start before
      set.bridge.tokenLogs = [.tokenAddress env.token] →
        set.tokens.ledger env.bridge + Ledger.amounts chain.bridge.withdrawals
          ≤ chain.tokens.ledger env.bridge + Ledger.amounts chain.bridge.deposits) ∧
      Ledger.total chain.tokens.ledger = chain.tokens.totalSupply.toNat ∧
      chain.bridge.withdrawals = chain.receipts.map Receipt.entry ∧
      (∀ receipt ∈ chain.receipts, receipt.Exact env.bridge) ∧
      (∀ (any : Chain Digest) (sender : env.User) (value : U256)
        (code : List (Call env.toDeployment)) (accepts : Bool),
        (approve any sender.val env.bridge value).receiveApproval env.foreign env.token sender.val
            value = none →
          step env any (.approveAndCall sender env.bridge value code accepts) = any) ∧
      ∀ (any : Chain Digest) (sender source : Address) (value : U256)
        (hexternal : env.External sender),
        step env any (.bridge (.receiveApproval sender source value) hexternal) = any := by
  have hdeployed : Sound env start ∧ start.tokens = BridgeableToken.deploy owner :=
    deploy_sound hdeploy
  obtain ⟨hstart, htokens⟩ := hdeployed
  obtain ⟨hsound, actions, hfollows⟩ := run_safe hstart calls
  refine ⟨?_, ?_, hsound.events, hsound.exact, ?_, ?_⟩
  · intro before after hcalls set hset
    obtain ⟨hwithdrawals, hdeposits⟩ := amounts_of_tokenAddress hset
    obtain ⟨-, actions, hfollows⟩ := run_safe (run_safe hstart before).1 after
    have hrun : run env (run env start before) after = run env start calls := by
      rw [hcalls]
      exact List.foldl_append.symm
    rw [hrun] at hfollows
    have hbacked := Ledger.run_backed hfollows.ledger
    rw [hfollows.withdrawals, hfollows.deposits, hwithdrawals, hdeposits]
    exact hbacked
  · apply Ledger.run_total hfollows.ledger
    rw [htokens]
    exact Ledger.total_zero
  · intro any sender value code accepts hfailed
    unfold step
    rw [exec, if_pos rfl, hfailed]
    rfl
  · intro any sender source value hexternal
    have hnone : any.receiveApproval env.foreign sender source value = none :=
      receiveApproval_external hexternal.2
    have hexec : ∀ call hexternal, exec env any (.bridge call hexternal)
        = any.exec env.foreign call := by
      intro call hexternal
      rw [exec]
    unfold step
    rw [(hexec (.receiveApproval sender source value) hexternal).trans hnone]
    rfl

/-- One authority, a user who mints, and the code of a spender. -/
def pairedEnv : CustodyEnv Bytes where
  keccak256 := id
  ecrecover := fun _ _ r _ => r.setWidth 160
  digestBytes := id
  bridge := 0xb1
  token := 0xc1
  distinct := by decide

def pairedUser : pairedEnv.User := ⟨0xa1, by decide, by decide⟩

/-- The token is set after the bridge has got one token from the minter. -/
def tokenSet : List (Call pairedEnv.toDeployment) :=
  [.token pairedUser (.setMintAgent 0xa1 true), .token pairedUser (.mint 0xa1 5),
    .token pairedUser (.transfer 0xb1 1), .bridge (.setTokenAddress 0xa1 0xc1) pairedUser.property]

/-- A spender lets the user withdraw 7 from inside its code, and 3 are deposited. -/
def tokensWithdrawn : List (Call pairedEnv.toDeployment) :=
  [.approveAndCall pairedUser 0xd1 2 [.approveAndCall pairedUser 0xb1 7 [] true] true,
    .bridge (.deposit 0xa1 ⟨0xd1, 3, 1⟩) pairedUser.property]

theorem withdrawals_backed_nested : ∃ start : Chain Bytes,
    deploy 1 [0xa1] 0xa1 = some start ∧
      let set := run pairedEnv start tokenSet
      let chain := run pairedEnv start (tokenSet ++ tokensWithdrawn)
      chain.bridge.withdrawals = [(0xa1, 7)] ∧ chain.bridge.deposits = [(0xd1, 3)] ∧
        set.tokens.ledger 0xb1 + Ledger.amounts chain.bridge.withdrawals
          ≤ chain.tokens.ledger 0xb1 + Ledger.amounts chain.bridge.deposits := by
  refine ⟨_, rfl, by decide +kernel, by decide +kernel, ?_⟩
  exact (withdrawals_backed pairedEnv 1 [0xa1] 0xa1 _ rfl (tokenSet ++ tokensWithdrawn)).1
    tokenSet tokensWithdrawn rfl (by decide +kernel)

end Custody

end PoaBridge.Contracts
