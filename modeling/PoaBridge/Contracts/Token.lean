import PoaBridge.Lib.Ledger
import PoaBridge.Solidity

/-!
# `BridgeableToken`

The contract of `contracts/BridgeableToken.sol` with the contracts that it
inherits from, apart from `approveAndCall`, which calls another contract and is
with the composition of the two.

The balances are 256-bit words.  `ledger` reads them as numbers, and each
function has a lemma that says what it does to the ledger, to the supply and to
the allowances.  Only `safeAdd` and `safeSub` keep the two views together.

`transferFrom` adds before it subtracts.  For a transfer from an account to
itself the check of the subtraction therefore always passes: the account needs
the allowance but not the balance.
-/

namespace PoaBridge.Contracts

/-! ## `SafeMath` -/

/-- The `assert` reverts. -/
def safeSub (a b : U256) : Option U256 := do
  require (b.toNat ≤ a.toNat)
  return a - b

def safeAdd (a b : U256) : Option U256 := do
  let c := a + b
  require (a.toNat ≤ c.toNat ∧ b.toNat ≤ c.toNat)
  return c

theorem safeSub_eq_some {a b c : U256} (h : safeSub a b = some c) :
    b.toNat ≤ a.toNat ∧ c.toNat = a.toNat - b.toNat := by
  unfold safeSub at h
  rw [require_bind_eq_some] at h
  rw [← Option.some.inj h.2]
  exact ⟨h.1, BitVec.toNat_sub_of_le h.1⟩

/-- A sum that wraps is below both summands. -/
theorem safeAdd_eq_some {a b c : U256} (h : safeAdd a b = some c) :
    c.toNat = a.toNat + b.toNat := by
  unfold safeAdd at h
  simp only [require_bind_eq_some] at h
  obtain ⟨⟨hle, -⟩, h⟩ := h
  rw [← Option.some.inj h]
  rw [BitVec.toNat_add] at hle ⊢
  have ha := a.isLt
  have hb := b.isLt
  omega

/-! ## The contract -/

/-- `1 ether`. -/
def ether : U256 := 1000000000000000000

structure BridgeableToken where
  totalSupply : U256
  balances : Address → U256
  allowed : Address → Address → U256
  owner : Address
  mintingFinished : Bool
  mintAgents : Address → Bool

namespace BridgeableToken

/-- The constructor of `Ownable`. -/
def deploy (sender : Address) : BridgeableToken where
  totalSupply := 0
  balances := fun _ => 0
  allowed := fun _ _ => 0
  owner := sender
  mintingFinished := false
  mintAgents := fun _ => false

/-- `balances[account] = safeAdd(balances[account], value)`. -/
def addBalance (self : BridgeableToken) (account : Address) (value : U256) :
    Option BridgeableToken := do
  let balance ← safeAdd (self.balances account) value
  return { self with balances := Function.update self.balances account balance }

/-- `balances[account] = safeSub(balances[account], value)`. -/
def subBalance (self : BridgeableToken) (account : Address) (value : U256) :
    Option BridgeableToken := do
  let balance ← safeSub (self.balances account) value
  return { self with balances := Function.update self.balances account balance }

/-- `allowed[owner][spender] = value`. -/
def setAllowed (self : BridgeableToken) (owner spender : Address) (value : U256) :
    BridgeableToken :=
  { self with allowed :=
      Function.update self.allowed owner (Function.update (self.allowed owner) spender value) }

def transfer (self : BridgeableToken) (sender target : Address) (value : U256) :
    Option BridgeableToken := do
  let self ← self.subBalance sender value
  self.addBalance target value

def transferFrom (self : BridgeableToken) (sender source target : Address) (value : U256) :
    Option BridgeableToken := do
  let allowance := self.allowed source sender
  let self ← self.addBalance target value
  let self ← self.subBalance source value
  let remaining ← safeSub allowance value
  return self.setAllowed source sender remaining

def approve (self : BridgeableToken) (sender spender : Address) (value : U256) :
    Option BridgeableToken := do
  -- the allowance has to be reduced to zero first
  require ¬(value ≠ 0 ∧ self.allowed sender spender ≠ 0)
  return self.setAllowed sender spender value

def allowance (self : BridgeableToken) (owner spender : Address) : U256 :=
  self.allowed owner spender

/-- `mint`, `onlyMintAgent canMint`. -/
def mint (self : BridgeableToken) (sender receiver : Address) (amount : U256) :
    Option BridgeableToken := do
  require (self.mintAgents sender = true)
  require (self.mintingFinished = false)
  let arrangedAmount := amount * ether
  let totalSupply ← safeAdd self.totalSupply arrangedAmount
  { self with totalSupply := totalSupply }.addBalance receiver arrangedAmount

/-- `setMintAgent`, `onlyOwner canMint`. -/
def setMintAgent (self : BridgeableToken) (sender agent : Address) (state : Bool) :
    Option BridgeableToken := do
  require (sender = self.owner)
  require (self.mintingFinished = false)
  return { self with mintAgents := Function.update self.mintAgents agent state }

/-- `transferOwnership`, `onlyOwner`. -/
def transferOwnership (self : BridgeableToken) (sender newOwner : Address) :
    Option BridgeableToken := do
  require (sender = self.owner)
  require (newOwner ≠ 0)
  return { self with owner := newOwner }

/-- A call of the contract that stays inside it. -/
inductive Call where
  | transfer (target : Address) (value : U256)
  | transferFrom (source target : Address) (value : U256)
  | approve (spender : Address) (value : U256)
  | mint (receiver : Address) (amount : U256)
  | setMintAgent (agent : Address) (state : Bool)
  | transferOwnership (newOwner : Address)
deriving DecidableEq, Repr

/-- One call; `none` is a revert. -/
def call (self : BridgeableToken) (sender : Address) : Call → Option BridgeableToken
  | .transfer target value => self.transfer sender target value
  | .transferFrom source target value => self.transferFrom sender source target value
  | .approve spender value => self.approve sender spender value
  | .mint receiver amount => self.mint sender receiver amount
  | .setMintAgent agent state => self.setMintAgent sender agent state
  | .transferOwnership newOwner => self.transferOwnership sender newOwner

/-! ## The ledger -/

/-- The balances as numbers. -/
def ledger (self : BridgeableToken) : Address → ℕ := fun a => (self.balances a).toNat

/-- The balances and the supply as numbers. -/
def state (self : BridgeableToken) : Ledger.State Address := ⟨self.ledger, self.totalSupply.toNat⟩

theorem ledger_update {self : BridgeableToken} {account : Address} {balance : U256} :
    { self with balances := Function.update self.balances account balance }.ledger
      = Function.update self.ledger account balance.toNat := by
  funext a
  exact Function.apply_update (fun _ => BitVec.toNat) self.balances account balance a

theorem addBalance_eq_some {token token' : BridgeableToken} {account : Address} {value : U256}
    (h : token.addBalance account value = some token') :
    token'.ledger = Ledger.credit token.ledger account value.toNat ∧
      token'.totalSupply = token.totalSupply ∧ token'.allowed = token.allowed := by
  obtain ⟨balance, hadd, h⟩ := Option.bind_eq_some_iff.1 h
  rw [← Option.some.inj h, ledger_update, safeAdd_eq_some hadd]
  exact ⟨rfl, rfl, rfl⟩

theorem subBalance_eq_some {token token' : BridgeableToken} {account : Address} {value : U256}
    (h : token.subBalance account value = some token') :
    value.toNat ≤ token.ledger account ∧
      token'.ledger = Ledger.debit token.ledger account value.toNat ∧
      token'.totalSupply = token.totalSupply ∧ token'.allowed = token.allowed := by
  obtain ⟨balance, hsub, h⟩ := Option.bind_eq_some_iff.1 h
  obtain ⟨hle, hbalance⟩ := safeSub_eq_some hsub
  rw [← Option.some.inj h, ledger_update, hbalance]
  exact ⟨hle, rfl, rfl, rfl⟩

theorem transfer_eq_some {token token' : BridgeableToken} {sender target : Address} {value : U256}
    (h : token.transfer sender target value = some token') :
    value.toNat ≤ token.ledger sender ∧
      token'.ledger = Ledger.transfer token.ledger sender target value.toNat ∧
      token'.totalSupply = token.totalSupply ∧ token'.allowed = token.allowed := by
  obtain ⟨middle, hsub, hadd⟩ := Option.bind_eq_some_iff.1 h
  obtain ⟨hle, hledger, hsupply, hallowed⟩ := subBalance_eq_some hsub
  obtain ⟨hledger', hsupply', hallowed'⟩ := addBalance_eq_some hadd
  rw [hledger', hsupply', hallowed', hledger]
  exact ⟨hle, rfl, hsupply, hallowed⟩

/-- What a successful `transferFrom` checked, and what it changed. -/
structure TransferredFrom (token : BridgeableToken) (sender source target : Address)
    (value : U256) (token' : BridgeableToken) : Prop where
  allowance : value.toNat ≤ (token.allowed source sender).toNat
  allowed : ∃ remaining : U256,
    remaining.toNat = (token.allowed source sender).toNat - value.toNat ∧
    token'.allowed = (token.setAllowed source sender remaining).allowed
  totalSupply : token'.totalSupply = token.totalSupply
  covered : source ≠ target → value.toNat ≤ token.ledger source
  ledger : source ≠ target →
    token'.ledger = Ledger.transfer token.ledger source target value.toNat
  ledger_self : source = target → token'.ledger = token.ledger

theorem transferFrom_eq_some {token token' : BridgeableToken} {sender source target : Address}
    {value : U256} (h : token.transferFrom sender source target value = some token') :
    TransferredFrom token sender source target value token' := by
  obtain ⟨added, hadd, h⟩ := Option.bind_eq_some_iff.1 h
  obtain ⟨moved, hsub, h⟩ := Option.bind_eq_some_iff.1 h
  obtain ⟨remaining, hremaining, h⟩ := Option.bind_eq_some_iff.1 h
  obtain ⟨hledger, hsupply, hallowed⟩ := addBalance_eq_some hadd
  obtain ⟨hle, hledger', hsupply', hallowed'⟩ := subBalance_eq_some hsub
  obtain ⟨hallowance, hremaining⟩ := safeSub_eq_some hremaining
  rw [← Option.some.inj h]
  have hresult : (moved.setAllowed source sender remaining).ledger
      = Ledger.debit (Ledger.credit token.ledger target value.toNat) source value.toNat := by
    rw [← hledger]
    exact hledger'
  refine ⟨hallowance, ⟨remaining, hremaining, ?_⟩, hsupply'.trans hsupply, ?_, ?_, ?_⟩
  · unfold setAllowed
    rw [hallowed', hallowed]
  · intro hne
    rw [hledger, Ledger.credit_of_ne _ hne] at hle
    exact hle
  · intro hne
    rw [hresult, Ledger.debit_credit_of_ne _ hne]
  · intro heq
    rw [hresult, heq, Ledger.debit_credit_self]

theorem mint_eq_some {token token' : BridgeableToken} {sender receiver : Address} {amount : U256}
    (h : token.mint sender receiver amount = some token') :
    token'.ledger = Ledger.credit token.ledger receiver (amount * ether).toNat ∧
      token'.totalSupply.toNat = token.totalSupply.toNat + (amount * ether).toNat ∧
      token'.allowed = token.allowed := by
  unfold mint at h
  simp only [require_bind_eq_some] at h
  obtain ⟨-, -, h⟩ := h
  obtain ⟨totalSupply, hsupply, h⟩ := Option.bind_eq_some_iff.1 h
  obtain ⟨hledger, hsupply', hallowed⟩ := addBalance_eq_some h
  rw [hledger, hsupply', hallowed]
  exact ⟨rfl, safeAdd_eq_some hsupply, rfl⟩

/-! ## An account that approves nobody -/

/-- Nobody may spend for the account. -/
def Unspendable (token : BridgeableToken) (account : Address) : Prop :=
  ∀ spender, token.allowed account spender = 0

section Custodian

variable {token token' : BridgeableToken} {custodian : Address}

theorem Unspendable.congr (h : token.Unspendable custodian)
    (hallowed : token'.allowed = token.allowed) : token'.Unspendable custodian := by
  intro spender
  rw [hallowed]
  exact h spender

/-- Other accounts may approve whom they like. -/
theorem Unspendable.setAllowed (h : token.Unspendable custodian) {owner : Address}
    (howner : owner ≠ custodian) (spender : Address) (value : U256) :
    (token.setAllowed owner spender value).Unspendable custodian := by
  intro spender'
  show Function.update token.allowed owner _ custodian spender' = 0
  rw [Function.update_of_ne (Ne.symm howner)]
  exact h spender'

/-- Zero is all that can be taken from such an account. -/
theorem TransferredFrom.unspendable {sender source target : Address} {value : U256}
    (hdone : TransferredFrom token sender source target value token')
    (h : token.Unspendable custodian) : token'.Unspendable custodian := by
  obtain ⟨remaining, hremaining, hallowed⟩ := hdone.allowed
  refine Unspendable.congr ?_ hallowed
  by_cases hsource : source = custodian
  · subst hsource
    have hzero : remaining = 0 := by
      refine BitVec.eq_of_toNat_eq ?_
      rw [hremaining, h sender]
      exact Nat.zero_sub _
    intro spender
    show Function.update token.allowed source (Function.update _ sender remaining)
      source spender = 0
    rw [Function.update_self]
    by_cases hspender : spender = sender
    · rw [hspender, Function.update_self, hzero]
    · rw [Function.update_of_ne hspender]
      exact h spender
  · exact h.setAllowed hsource sender remaining

/-- The two ledgers differ by actions that neither lock nor release. -/
def Moves (custodian : Address) (token token' : BridgeableToken) : Prop :=
  ∃ actions, Ledger.run custodian token.state actions = some token'.state ∧
    Ledger.locks actions = [] ∧ Ledger.releases actions = []

theorem Moves.of_eq (h : token'.state = token.state) : Moves custodian token token' :=
  ⟨[], by rw [h]; rfl, rfl, rfl⟩

theorem TransferredFrom.moves {sender source target : Address} {value : U256}
    (hdone : TransferredFrom token sender source target value token')
    (h : token.Unspendable custodian) : Moves custodian token token' := by
  by_cases hself : source = target
  · refine Moves.of_eq ?_
    unfold state
    rw [hdone.ledger_self hself, hdone.totalSupply]
  · have hcovered := hdone.covered hself
    have hledger := hdone.ledger hself
    by_cases hsource : source = custodian
    · have hzero : value.toNat = 0 := by
        have hallowance := hdone.allowance
        rw [hsource, h sender] at hallowance
        exact Nat.le_zero.1 hallowance
      refine Moves.of_eq ?_
      unfold state
      rw [hledger, hdone.totalSupply, hzero, Ledger.transfer_zero]
    · refine ⟨[.move source target value.toNat], Ledger.run_singleton ?_, rfl, rfl⟩
      apply (Ledger.apply_move hsource hcovered).trans
      unfold state
      rw [hledger, hdone.totalSupply]

/-- A call of somebody else. -/
theorem call_spec {sender : Address} (hsender : sender ≠ custodian)
    (h : token.Unspendable custodian) {call : Call} (hcall : token.call sender call = some token') :
    token'.Unspendable custodian ∧ Moves custodian token token' := by
  cases call with
  | transfer target value =>
    obtain ⟨hle, hledger, hsupply, hallowed⟩ := transfer_eq_some hcall
    refine ⟨h.congr hallowed, [.move sender target value.toNat], Ledger.run_singleton ?_, rfl, rfl⟩
    apply (Ledger.apply_move hsender hle).trans
    unfold state
    rw [hledger, hsupply]
  | transferFrom source target value =>
    have hdone := transferFrom_eq_some hcall
    exact ⟨hdone.unspendable h, hdone.moves h⟩
  | approve spender value =>
    unfold BridgeableToken.call approve at hcall
    simp only [require_bind_eq_some] at hcall
    rw [← Option.some.inj hcall.2]
    exact ⟨h.setAllowed hsender spender value, Moves.of_eq rfl⟩
  | mint receiver amount =>
    obtain ⟨hledger, hsupply, hallowed⟩ := mint_eq_some hcall
    refine ⟨h.congr hallowed, [.mint receiver (amount * ether).toNat], Ledger.run_singleton ?_,
      rfl, rfl⟩
    unfold state
    rw [Ledger.apply, hledger, hsupply]
  | setMintAgent agent allow =>
    unfold BridgeableToken.call setMintAgent at hcall
    simp only [require_bind_eq_some] at hcall
    rw [← Option.some.inj hcall.2.2]
    exact ⟨h, Moves.of_eq rfl⟩
  | transferOwnership newOwner =>
    unfold BridgeableToken.call transferOwnership at hcall
    simp only [require_bind_eq_some] at hcall
    rw [← Option.some.inj hcall.2.2]
    exact ⟨h, Moves.of_eq rfl⟩

end Custodian

end BridgeableToken

end PoaBridge.Contracts
