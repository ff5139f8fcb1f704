import PoaBridge.Contracts.Home
import PoaBridge.Lib.Runs

/-!
# The books of `HomeBridge` of `contracts/bridge.sol`

The home chain over whole runs: deposits by anybody, calls of `withdraw` by
anybody, and everything else that happens to the ether.  `HomeHistory` remembers
the messages that were paid.

A message may name the bridge itself as the recipient.  The bridge then runs its
own fallback function and emits `Deposit`, and the ether stays where it is.
`withdraw_paid` is the case analysis of `withdraw` without an assumption on the
recipient, and `exec_cases` says what a transaction does.

`Books` is the invariant, and `payments_accounted` is the result.
-/

namespace PoaBridge.Contracts

open BigEndian

/-! ## The home chain -/

/-- The fields of the message, as `withdraw` reads them. -/
def WithdrawCall.payment (call : WithdrawCall) : MessageToMainnet where
  recipient := call.recipient
  value := call.value
  sidenetTransactionHash := call.hash
  mainnetGasPrice := call.homeGasPrice

/-- A transaction on the home chain. -/
inductive HomeCall where
  | fallback (sender : Address) (value : U256)
  | withdraw (call : WithdrawCall)
  /-- The bridge gets ether and its code does not run. -/
  | gift (amount : ℕ)
  /-- Transactions of others, and the ether after them. -/
  | elsewhere (ether : Address → ℕ)

/-- What the transaction pays if it is not reverted. -/
def HomeCall.payments : HomeCall → List MessageToMainnet
  | .withdraw call => [call.payment]
  | _ => []

/-- The chain, the messages that `withdraw` has paid, and the ether that the
bridge was given; the contract does not have these records. -/
structure HomeHistory extends HomeChain where
  paid : List MessageToMainnet
  given : ℕ

/-- What the event takes in. -/
def HomeEvent.deposit? : HomeEvent → Option (Address × ℕ)
  | .deposit recipient value => some (recipient, value.toNat)
  | _ => none

/-- What the event pays. -/
def HomeEvent.withdrawal? : HomeEvent → Option (Address × ℕ)
  | .withdraw recipient value => some (recipient, value.toNat)
  | _ => none

namespace HomeBridge

/-- The `Deposit` events so far. -/
def deposits (self : HomeBridge) : List (Address × ℕ) := self.logs.filterMap HomeEvent.deposit?

/-- The `Withdraw` events so far. -/
def withdrawals (self : HomeBridge) : List (Address × ℕ) :=
  self.logs.filterMap HomeEvent.withdrawal?

/-- What the contract never changes after its deployment. -/
structure SameConfig (bridge bridge' : HomeBridge) : Prop where
  requiredSignatures : bridge'.requiredSignatures = bridge.requiredSignatures
  authorities : bridge'.authorities = bridge.authorities
  estimatedGasCostOfWithdraw : bridge'.estimatedGasCostOfWithdraw
    = bridge.estimatedGasCostOfWithdraw

/-- The relay cost of a payment, and what is left of its value. -/
def cost (self : HomeBridge) (payment : MessageToMainnet) : ℕ :=
  (self.estimatedWeiCostOfWithdraw payment.mainnetGasPrice).toNat

end HomeBridge

namespace HomeHistory

variable {Digest : Type}

/-- One transaction; `none` is a revert. -/
def exec (env : HomeEnv Digest) (self : HomeHistory) : HomeCall → Option HomeHistory
  | .fallback sender value => do
    let chain ← self.toHomeChain.fallback env sender value
    return { self with toHomeChain := chain }
  | .withdraw call => do
    let chain ← self.toHomeChain.withdraw env call
    return { self with toHomeChain := chain, paid := self.paid ++ [call.payment] }
  | .gift amount =>
    some { self with
      ether := Ledger.credit self.ether env.bridge amount
      given := self.given + amount }
  | .elsewhere ether => some { self with ether := ether }

/-- The chain after a list of transactions.  A reverted one changes nothing. -/
def run (env : HomeEnv Digest) (self : HomeHistory) (calls : List HomeCall) : HomeHistory :=
  calls.foldl (Runs.attempt (exec env)) self

/-- The transactions that can happen.  The bridge sends none, others do not touch
its ether, and there is never as much as `2 ^ 255` of ether. -/
def Possible (env : HomeEnv Digest) (self : HomeHistory) : HomeCall → Prop
  | .fallback sender _ => sender ≠ env.bridge
  | .withdraw call => call.sender ≠ env.bridge
  | .gift amount => Ledger.total self.ether + amount < 2 ^ 255
  | .elsewhere ether => ether env.bridge = self.ether env.bridge ∧ Ledger.total ether < 2 ^ 255

end HomeHistory

/-! ## What a transaction does -/

namespace HomeChain

variable {Digest : Type} {env : HomeEnv Digest} {chain chain' : HomeChain}

/-- `transfer` to any target, the bridge included. -/
theorem transfer_done {target : Address} {value : U256} {accepts : Bool}
    (h : chain.transfer env target value accepts = some chain') :
    value.toNat ≤ chain.ether env.bridge ∧
      chain'.ether = Ledger.transfer chain.ether env.bridge target value.toNat ∧
      chain'.bridge = if target = env.bridge then chain.bridge.emit (.deposit env.bridge value)
        else chain.bridge := by
  by_cases htarget : target = env.bridge
  · unfold transfer at h
    rw [if_pos htarget] at h
    unfold fallback at h
    rw [require_bind_eq_some] at h
    rw [← Option.some.inj h.2, if_pos htarget, htarget]
    exact ⟨h.1, rfl, rfl⟩
  · obtain ⟨hcovered, -, hbridge, hether⟩ := transfer_eq_some htarget h
    rw [if_neg htarget]
    exact ⟨hcovered, hether, hbridge⟩

/-- What a transfer of the bridge takes from the bridge. -/
theorem transfer_bridge_balance {ether : Address → ℕ} {bridge target : Address} {amount : ℕ}
    (h : amount ≤ ether bridge) :
    Ledger.transfer ether bridge target amount bridge + amount
      = ether bridge + if target = bridge then amount else 0 := by
  by_cases htarget : target = bridge
  · rw [htarget, Ledger.transfer_self h, if_pos rfl]
  · rw [Ledger.transfer_source _ (Ne.symm htarget), if_neg htarget]
    omega

/-- Two parts that the bridge held are no more than `2 ^ 256` together. -/
theorem split_exact_of_le {value cost : U256} {balance : ℕ} (hbalance : balance < 2 ^ 255)
    (hremaining : (value - cost).toNat ≤ balance) (hcost : cost.toNat ≤ balance) :
    (value - cost).toNat + cost.toNat = value.toNat := by
  have hwrapped : (value - cost + cost).toNat = value.toNat := by rw [BitVec.sub_add_cancel]
  rwa [BitVec.toNat_add, Nat.mod_eq_of_lt (by omega)] at hwrapped

/-- The events of a payment.  The bridge that is paid runs its fallback
function. -/
def paymentEvents (bridge recipient : Address) (remaining : U256) : List HomeEvent :=
  (if recipient = bridge then [.deposit bridge remaining] else [])
    ++ [.withdraw recipient remaining]

theorem deposits_paymentEvents (bridge recipient : Address) (remaining : U256) :
    Ledger.amounts ((paymentEvents bridge recipient remaining).filterMap HomeEvent.deposit?)
      = if recipient = bridge then remaining.toNat else 0 := by
  unfold paymentEvents
  split <;> simp [HomeEvent.deposit?, Ledger.amounts, List.filterMap_cons]

theorem withdrawals_paymentEvents (bridge recipient : Address) (remaining : U256) :
    (paymentEvents bridge recipient remaining).filterMap HomeEvent.withdrawal?
      = [(recipient, remaining.toNat)] := by
  unfold paymentEvents
  split <;> rfl

/-- What a successful `withdraw` checked, and what it changed, for every
recipient. -/
structure WithdrawPaid (env : HomeEnv Digest) (chain : HomeChain) (call : WithdrawCall)
    (chain' : HomeChain) : Prop where
  length : call.message.length = 116
  quorum : hasEnoughValidSignatures env.keccak256 env.ecrecover call.message call.vs call.rs
    call.ss chain.bridge.authorities chain.bridge.requiredSignatures = some true
  fresh : chain.bridge.withdraws call.hash = false
  split : (call.value - chain.bridge.estimatedWeiCostOfWithdraw call.homeGasPrice).toNat
    + chain.bridge.cost call.payment = call.value.toNat
  config : chain.bridge.SameConfig chain'.bridge
  marks : chain'.bridge.withdraws = Function.update chain.bridge.withdraws call.hash true
  logs : chain'.bridge.logs = chain.bridge.logs ++ paymentEvents env.bridge call.recipient
    (call.value - chain.bridge.estimatedWeiCostOfWithdraw call.homeGasPrice)
  ether : chain'.ether env.bridge + call.value.toNat = chain.ether env.bridge
    + if call.recipient = env.bridge then
        (call.value - chain.bridge.estimatedWeiCostOfWithdraw call.homeGasPrice).toNat else 0
  total : Ledger.total chain'.ether = Ledger.total chain.ether

theorem withdraw_paid {call : WithdrawCall} (hether : Ledger.total chain.ether < 2 ^ 255)
    (hsender : call.sender ≠ env.bridge) (h : chain.withdraw env call = some chain') :
    WithdrawPaid env chain call chain' := by
  unfold withdraw at h
  rw [require_bind_eq_some] at h
  obtain ⟨enough, henough, hrest⟩ := Option.bind_eq_some_iff.1 h.2
  simp only [require_bind_eq_some, HomeBridge.estimatedWeiCostOfWithdraw_mark] at hrest
  obtain ⟨rfl, -, hfresh, hrest⟩ := hrest
  obtain ⟨first, hfirst, hrest⟩ := Option.bind_eq_some_iff.1 hrest
  obtain ⟨second, hsecond, hrest⟩ := Option.bind_eq_some_iff.1 hrest
  obtain ⟨hremaining, hether₁, hbridge₁⟩ := transfer_done hfirst
  dsimp only at hremaining hether₁ hbridge₁
  obtain ⟨hcost, -, hbridge₂, hether₂⟩ := transfer_eq_some hsender hsecond
  have hbalance₁ := @transfer_bridge_balance chain.ether env.bridge call.recipient _ hremaining
  have hbalance₂ := @transfer_bridge_balance first.ether env.bridge call.sender _ hcost
  rw [← hether₁] at hbalance₁
  rw [← hether₂, if_neg hsender] at hbalance₂
  have hheld := (Ledger.le_total chain.ether env.bridge).trans_lt hether
  have hfirst_le : first.ether env.bridge ≤ chain.ether env.bridge := by
    split at hbalance₁ <;> omega
  have hsplit := split_exact_of_le hheld hremaining (hcost.trans hfirst_le)
  have htotal₁ : Ledger.total first.ether = Ledger.total chain.ether := by
    rw [hether₁]
    exact Ledger.total_transfer _ hremaining
  rw [← Option.some.inj hrest]
  refine ⟨h.1, henough, hfresh, hsplit, ?_, ?_, ?_, ?_, ?_⟩
  · rw [hbridge₂, hbridge₁]
    split <;> exact ⟨rfl, rfl, rfl⟩
  · rw [hbridge₂, hbridge₁]
    split <;> rfl
  · rw [hbridge₂, hbridge₁]
    unfold paymentEvents
    split
    · exact List.append_assoc ..
    · rfl
  · show second.ether env.bridge + _ = _
    omega
  · show Ledger.total second.ether = _
    rw [hether₂, Ledger.total_transfer _ hcost, htotal₁]

end HomeChain

/-! ## The books -/

/-- The sum of the values. -/
def values (payments : List MessageToMainnet) : ℕ :=
  (payments.map fun payment => payment.value.toNat).sum

@[simp] theorem values_append (before after : List MessageToMainnet) :
    values (before ++ after) = values before + values after := by
  unfold values
  rw [List.map_append, List.sum_append]

@[simp] theorem values_singleton (payment : MessageToMainnet) :
    values [payment] = payment.value.toNat := List.sum_singleton

/-- The hashes of the transactions that asked for the payments. -/
def hashes (payments : List MessageToMainnet) : List H256 :=
  payments.map MessageToMainnet.sidenetTransactionHash

namespace HomeBridge

/-- A quorum of the authorities has signed the message. -/
def Signed {Digest : Type} (env : HomeEnv Digest) (self : HomeBridge)
    (payment : MessageToMainnet) : Prop :=
  ∃ vs rs ss, hasEnoughValidSignatures env.keccak256 env.ecrecover payment.toBytes vs rs ss
    self.authorities self.requiredSignatures = some true

/-- What the `Withdraw` event of a payment says. -/
def receipt (self : HomeBridge) (payment : MessageToMainnet) : Address × ℕ :=
  (payment.recipient, payment.value.toNat - self.cost payment)

variable {bridge bridge' : HomeBridge} {events : List HomeEvent}

theorem deposits_append (h : bridge'.logs = bridge.logs ++ events) :
    bridge'.deposits = bridge.deposits ++ events.filterMap HomeEvent.deposit? := by
  unfold deposits
  rw [h, List.filterMap_append]

theorem withdrawals_append (h : bridge'.logs = bridge.logs ++ events) :
    bridge'.withdrawals = bridge.withdrawals ++ events.filterMap HomeEvent.withdrawal? := by
  unfold withdrawals
  rw [h, List.filterMap_append]

theorem SameConfig.refl : bridge.SameConfig bridge := ⟨rfl, rfl, rfl⟩

theorem SameConfig.trans {bridge'' : HomeBridge} (h : bridge.SameConfig bridge')
    (h' : bridge'.SameConfig bridge'') : bridge.SameConfig bridge'' :=
  ⟨h'.requiredSignatures.trans h.requiredSignatures, h'.authorities.trans h.authorities,
    h'.estimatedGasCostOfWithdraw.trans h.estimatedGasCostOfWithdraw⟩

theorem SameConfig.cost (h : bridge.SameConfig bridge') (payment : MessageToMainnet) :
    bridge'.cost payment = bridge.cost payment := by
  unfold HomeBridge.cost estimatedWeiCostOfWithdraw
  rw [h.estimatedGasCostOfWithdraw]

theorem SameConfig.receipt (h : bridge.SameConfig bridge') :
    bridge'.receipt = bridge.receipt := by
  funext payment
  unfold HomeBridge.receipt
  rw [h.cost]

theorem SameConfig.signed {Digest : Type} {env : HomeEnv Digest} (h : bridge.SameConfig bridge')
    {payment : MessageToMainnet} (hsigned : bridge'.Signed env payment) :
    bridge.Signed env payment := by
  unfold Signed at hsigned ⊢
  rwa [h.requiredSignatures, h.authorities] at hsigned

end HomeBridge

/-- The contract reads the fields of the message that was signed. -/
theorem WithdrawCall.toBytes_payment {call : WithdrawCall} (h : call.message.length = 116) :
    call.payment.toBytes = call.message := by
  obtain ⟨m, -, hm⟩ := MessageToMainnet.exists_toBytes_eq h
  have hpayment : call.payment = m := by
    unfold WithdrawCall.payment WithdrawCall.recipient WithdrawCall.value WithdrawCall.hash
      WithdrawCall.homeGasPrice WithdrawCall.memory
    rw [← hm, m.getRecipient_toBytes, m.getValue_toBytes, m.getTransactionHash_toBytes,
      m.getHomeGasPrice_toBytes]
  rw [hpayment, hm]

namespace HomeHistory

variable {Digest : Type} {env : HomeEnv Digest} {start s s' : HomeHistory}

/-- What a transaction that is not reverted does: the events it emits, and the
messages it pays. -/
structure Done (env : HomeEnv Digest) (s : HomeHistory) (events : List HomeEvent)
    (payments : List MessageToMainnet) (s' : HomeHistory) : Prop where
  config : s.bridge.SameConfig s'.bridge
  total : Ledger.total s'.ether < 2 ^ 255
  logs : s'.bridge.logs = s.bridge.logs ++ events
  paid : s'.paid = s.paid ++ payments
  fresh : ∀ hash ∈ hashes payments, s.bridge.withdraws hash = false
  distinct : (hashes payments).Nodup
  marks : ∀ hash, s'.bridge.withdraws hash = true ↔
    s.bridge.withdraws hash = true ∨ hash ∈ hashes payments
  given : s.given ≤ s'.given
  balance : s'.ether env.bridge + values payments + s.given
    = s.ether env.bridge + Ledger.amounts (events.filterMap HomeEvent.deposit?) + s'.given
  receipts : events.filterMap HomeEvent.withdrawal? = payments.map s.bridge.receipt
  covered : ∀ payment ∈ payments, s.bridge.cost payment ≤ payment.value.toNat
  signed : ∀ payment ∈ payments, s.bridge.Signed env payment

/-- A transaction that leaves the contract alone. -/
theorem Done.of_ether {ether : Address → ℕ} {given : ℕ} (htotal : Ledger.total ether < 2 ^ 255)
    (hgiven : s.given ≤ given)
    (hbalance : ether env.bridge + s.given = s.ether env.bridge + given) :
    Done env s [] [] { s with ether := ether, given := given } where
  config := .refl
  total := htotal
  logs := (List.append_nil _).symm
  paid := (List.append_nil _).symm
  fresh := fun _ hmem => absurd hmem List.not_mem_nil
  distinct := List.nodup_nil
  marks := fun _ => (or_iff_left List.not_mem_nil).symm
  given := hgiven
  balance := hbalance
  receipts := rfl
  covered := fun _ hmem => absurd hmem List.not_mem_nil
  signed := fun _ hmem => absurd hmem List.not_mem_nil

theorem done_fallback {sender : Address} {value : U256} {chain : HomeChain}
    (htotal : Ledger.total s.ether < 2 ^ 255) (hsender : sender ≠ env.bridge)
    (h : s.toHomeChain.fallback env sender value = some chain) :
    Done env s [.deposit sender value] [] { s with toHomeChain := chain } := by
  unfold HomeChain.fallback at h
  rw [require_bind_eq_some] at h
  rw [← Option.some.inj h.2]
  refine ⟨⟨rfl, rfl, rfl⟩, ?_, rfl, (List.append_nil _).symm,
    fun _ hmem => absurd hmem List.not_mem_nil, List.nodup_nil,
    fun _ => (or_iff_left List.not_mem_nil).symm, Nat.le_refl _, ?_, rfl,
    fun _ hmem => absurd hmem List.not_mem_nil, fun _ hmem => absurd hmem List.not_mem_nil⟩
  · show Ledger.total (Ledger.transfer s.ether sender env.bridge value.toNat) < _
    rw [Ledger.total_transfer _ h.1]
    exact htotal
  · show Ledger.transfer s.ether sender env.bridge value.toNat env.bridge + 0 + s.given = _
    rw [Ledger.transfer_target _ (Ne.symm hsender)]
    rfl

theorem done_withdraw {call : WithdrawCall} {chain : HomeChain}
    (htotal : Ledger.total s.ether < 2 ^ 255) (hsender : call.sender ≠ env.bridge)
    (h : s.toHomeChain.withdraw env call = some chain) :
    ∃ events, Done env s events [call.payment]
      { s with toHomeChain := chain, paid := s.paid ++ [call.payment] } := by
  have hpaid := HomeChain.withdraw_paid htotal hsender h
  have hsplit := hpaid.split
  refine ⟨_, hpaid.config, hpaid.total.trans_lt htotal, hpaid.logs, rfl, ?_,
    List.nodup_singleton _, ?_, Nat.le_refl _, ?_, ?_, ?_, ?_⟩
  · intro hash hmem
    rw [List.mem_singleton.1 hmem]
    exact hpaid.fresh
  · intro hash
    show chain.bridge.withdraws hash = true ↔ _
    rw [hpaid.marks]
    by_cases heq : hash = call.hash
    · rw [heq, Function.update_self]
      exact iff_of_true rfl (Or.inr (List.mem_singleton.2 rfl))
    · rw [Function.update_of_ne heq]
      exact (or_iff_left fun hmem => heq (List.mem_singleton.1 hmem)).symm
  · have hether := hpaid.ether
    have hvalue : values [call.payment] = call.value.toNat := values_singleton _
    rw [hvalue, HomeChain.deposits_paymentEvents]
    dsimp only
    omega
  · have hreceipt : s.bridge.receipt call.payment = (call.recipient,
        (call.value - s.bridge.estimatedWeiCostOfWithdraw call.homeGasPrice).toNat) := by
      refine Prod.ext rfl ?_
      show call.value.toNat - s.bridge.cost call.payment = _
      omega
    rw [List.map_singleton, hreceipt, HomeChain.withdrawals_paymentEvents]
  · intro payment hmem
    rw [List.mem_singleton.1 hmem]
    show s.bridge.cost call.payment ≤ call.value.toNat
    omega
  · intro payment hmem
    rw [List.mem_singleton.1 hmem]
    exact ⟨call.vs, call.rs, call.ss, (call.toBytes_payment hpaid.length).symm ▸ hpaid.quorum⟩

theorem exec_done {call : HomeCall} (htotal : Ledger.total s.ether < 2 ^ 255)
    (hpossible : Possible env s call) (h : exec env s call = some s') :
    ∃ events, Done env s events call.payments s' := by
  cases call with
  | fallback sender value =>
    obtain ⟨chain, hchain, h⟩ := Option.bind_eq_some_iff.1 h
    rw [← Option.some.inj h]
    exact ⟨_, done_fallback htotal hpossible hchain⟩
  | withdraw call =>
    obtain ⟨chain, hchain, h⟩ := Option.bind_eq_some_iff.1 h
    rw [← Option.some.inj h]
    exact done_withdraw htotal hpossible hchain
  | gift amount =>
    rw [← Option.some.inj h]
    refine ⟨[], .of_ether ?_ (Nat.le_add_right _ _) ?_⟩
    · rw [Ledger.total_credit]
      exact hpossible
    · rw [Ledger.credit_self]
      omega
  | elsewhere ether =>
    rw [← Option.some.inj h]
    exact ⟨[], .of_ether hpossible.2 (Nat.le_refl _) (by rw [hpossible.1])⟩

/-- The invariant of a run. -/
structure Books (env : HomeEnv Digest) (start s : HomeHistory) : Prop where
  config : start.bridge.SameConfig s.bridge
  total : Ledger.total s.ether < 2 ^ 255
  marked : ∀ hash, s.bridge.withdraws hash = true ↔ hash ∈ hashes s.paid
  distinct : (hashes s.paid).Nodup
  balance : s.ether env.bridge + values s.paid
    = start.ether env.bridge + Ledger.amounts s.bridge.deposits + s.given
  receipts : s.bridge.withdrawals = s.paid.map start.bridge.receipt
  covered : ∀ payment ∈ s.paid, start.bridge.cost payment ≤ payment.value.toNat
  signed : ∀ payment ∈ s.paid, start.bridge.Signed env payment

theorem Books.done (h : Books env start s) {events : List HomeEvent}
    {payments : List MessageToMainnet} (hdone : Done env s events payments s') :
    Books env start s' := by
  have hpaid : hashes s'.paid = hashes s.paid ++ hashes payments := by
    unfold hashes
    rw [hdone.paid, List.map_append]
  refine ⟨h.config.trans hdone.config, hdone.total, ?_, ?_, ?_, ?_, ?_, ?_⟩
  · intro hash
    rw [hdone.marks, h.marked, hpaid, List.mem_append]
  · rw [hpaid, List.nodup_append]
    refine ⟨h.distinct, hdone.distinct, ?_⟩
    rintro hash hold _ hnew rfl
    have hmarked := (h.marked hash).2 hold
    rw [hdone.fresh hash hnew] at hmarked
    cases hmarked
  · have hdeposits : Ledger.amounts s'.bridge.deposits = Ledger.amounts s.bridge.deposits
        + Ledger.amounts (events.filterMap HomeEvent.deposit?) := by
      unfold Ledger.amounts
      rw [HomeBridge.deposits_append hdone.logs, List.map_append, List.sum_append]
    have hbefore := h.balance
    have hafter := hdone.balance
    rw [hdone.paid, values_append, hdeposits]
    omega
  · rw [HomeBridge.withdrawals_append hdone.logs, h.receipts, hdone.receipts, hdone.paid,
      List.map_append, h.config.receipt]
  · intro payment hmem
    rw [hdone.paid, List.mem_append] at hmem
    rcases hmem with hmem | hmem
    · exact h.covered payment hmem
    · rw [← h.config.cost]
      exact hdone.covered payment hmem
  · intro payment hmem
    rw [hdone.paid, List.mem_append] at hmem
    rcases hmem with hmem | hmem
    · exact h.signed payment hmem
    · exact h.config.signed (hdone.signed payment hmem)

theorem books_step {call : HomeCall} (h : Books env start s) (hpossible : Possible env s call) :
    Books env start (Runs.attempt (exec env) s call) := by
  unfold Runs.attempt
  cases hcall : exec env s call with
  | none => exact h
  | some s' =>
    obtain ⟨events, hdone⟩ := exec_done h.total hpossible hcall
    exact h.done hdone

/-- The contract after its deployment. -/
def deploy (requiredSignatures : Nat) (authorities : List Address)
    (estimatedGasCostOfWithdraw : U256) (ether : Address → ℕ) : Option HomeHistory := do
  let bridge ← HomeBridge.deploy requiredSignatures authorities estimatedGasCostOfWithdraw
  return ⟨⟨bridge, ether⟩, [], 0⟩

theorem deploy_books {requiredSignatures : Nat} {authorities : List Address}
    {estimatedGasCostOfWithdraw : U256} {ether : Address → ℕ}
    (htotal : Ledger.total ether < 2 ^ 255)
    (h : deploy requiredSignatures authorities estimatedGasCostOfWithdraw ether = some start) :
    Books env start start := by
  obtain ⟨bridge, hbridge, h⟩ := Option.bind_eq_some_iff.1 h
  unfold HomeBridge.deploy at hbridge
  simp only [require_bind_eq_some] at hbridge
  rw [← Option.some.inj h, ← Option.some.inj hbridge.2.2]
  exact ⟨.refl, htotal, fun _ => iff_of_false Bool.false_ne_true List.not_mem_nil,
    List.nodup_nil, rfl, rfl, fun _ hmem => absurd hmem List.not_mem_nil,
    fun _ hmem => absurd hmem List.not_mem_nil⟩

/-- The books of the bridge, for every deployment and every run of transactions by
anybody.

The bridge holds what it held at the start, the deposits and what it was given, up
to the values it has paid.  It has paid at most one message for each transaction
hash, and exactly the hashes of these messages are marked.  There is one `Withdraw`
event for each payment, and it says what is left of the value after the relay cost,
which was not above it.  A quorum of the authorities has signed every message that
was paid. -/
theorem payments_accounted (env : HomeEnv Digest) (requiredSignatures : Nat)
    (authorities : List Address) (estimatedGasCostOfWithdraw : U256) (ether : Address → ℕ)
    (start : HomeHistory)
    (hdeploy : deploy requiredSignatures authorities estimatedGasCostOfWithdraw ether = some start)
    (htotal : Ledger.total ether < 2 ^ 255) (calls : List HomeCall)
    (hpossible : Runs.Along (Runs.attempt (exec env)) (Possible env) start calls) :
    let s := start.run env calls
    s.ether env.bridge + values s.paid
        = start.ether env.bridge + Ledger.amounts s.bridge.deposits + s.given ∧
      (hashes s.paid).Nodup ∧
      (∀ hash, s.bridge.withdraws hash = true ↔ hash ∈ hashes s.paid) ∧
      s.bridge.withdrawals = s.paid.map start.bridge.receipt ∧
      ∀ payment ∈ s.paid, start.bridge.cost payment ≤ payment.value.toNat ∧
        start.bridge.Signed env payment := by
  have hbooks : Books env start (start.run env calls) :=
    Runs.foldl_of_along (fun _ _ => books_step) calls start hpossible (deploy_books htotal hdeploy)
  exact ⟨hbooks.balance, hbooks.distinct, hbooks.marked, hbooks.receipts,
    fun payment hmem => ⟨hbooks.covered payment hmem, hbooks.signed payment hmem⟩⟩

/-- The ether of a depositor, and what the bridge holds. -/
def depositorEther : Address → ℕ := Ledger.credit (Ledger.credit (fun _ => 0) 0xb1 100) 0xc1 50

/-- A deposit, a withdrawal, and the same withdrawal once more. -/
def withdrawTwice : List HomeCall :=
  [.fallback 0xc1 20, .withdraw HomeChain.relayedWithdraw, .withdraw HomeChain.relayedWithdraw]

theorem payments_accounted_twice : ∃ start,
    deploy 1 [0xa1] 2 depositorEther = some start ∧
      let s := start.run HomeChain.fundedEnv withdrawTwice
      s.ether 0xb1 + 10 = 120 := by
  refine ⟨_, rfl, ?_⟩
  have htotal : Ledger.total depositorEther = 150 := by
    rw [depositorEther, Ledger.total_credit, Ledger.total_credit, Ledger.total_zero]
  have hdepositor : (0xc1 : Address) ≠ HomeChain.fundedEnv.bridge := by decide
  have hrelay : HomeChain.relayedWithdraw.sender ≠ HomeChain.fundedEnv.bridge := by decide
  have hbooks := (payments_accounted HomeChain.fundedEnv 1 [0xa1] 2 depositorEther _ rfl
    (by rw [htotal]; omega) withdrawTwice ⟨hdepositor, hrelay, hrelay, trivial⟩).1
  refine Eq.trans ?_ (hbooks.trans ?_)
  · decide +kernel
  · decide +kernel

end HomeHistory

end PoaBridge.Contracts
