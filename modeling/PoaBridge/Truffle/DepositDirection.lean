import Mathlib.Data.Finset.Card
import PoaBridge.DepositRelay
import PoaBridge.Observer
import PoaBridge.Truffle.Foreign

/-!
# Deposits, from home to foreign

The system of the home chain, the foreign chain and the validators in between,
for a registry that does not change.

A validator that follows the protocol reads the home chain through its
`LogStream` and sends what `depositRelayPayload` makes of the logs that the
stream delivered, as often and in whatever order it likes.  The faulty
validators, and everybody who is no validator, call what they want.

The result is safety, `payouts_backed_and_once`: with fewer faulty validators
than the threshold, every payout on foreign is backed by a confirmed `Deposit`
log on home, and it is made once.  The ether that leaves foreign leaves it in
these payouts only.
-/

namespace PoaBridge.Truffle

variable {Digest : Type} [DecidableEq Digest]

/-! ## The system -/

/-- The parties and their configuration. -/
structure DepositSetup (Digest : Type) where
  env : Evm Digest
  abi : Abi
  registry : FixedRegistry
  /-- The address of `HomeBridge`. -/
  homeContract : Address
  /-- `required_confirmations` of the home node. -/
  confirmations : UInt64
  /-- The validators that do not follow the protocol. -/
  faulty : Finset Address

structure DepositSystem (Digest : Type) where
  home : Blocks
  foreign : ForeignChain Digest
  observers : Address → Observer

namespace DepositSystem

/-- What can happen next. -/
inductive Action where
  /-- The home chain grows by one block. -/
  | mine (logs : List Log)
  /-- The process of a validator is polled. -/
  | poll (validator : Address) (script : List LogStream.Answers)
  /-- The process of a validator is started again. -/
  | restart (validator : Address) (after : UInt64)
  /-- A validator sends the payload of a log, and the transaction is mined. -/
  | relay (validator : Address) (log : Log) (accepts : Bool)
  /-- A transaction of anybody else is mined on foreign. -/
  | call (call : ForeignChain.Call)

/-- The call that the contract sees for the payload of a log. -/
def relayCall (abi : Abi) (validator : Address) (log : Log) (accepts : Bool) :
    Option ForeignChain.Call :=
  match depositRelayPayload abi log with
  | .error _ => none
  | .ok payload => (abi.decodeDeposit payload).map fun arguments =>
    .deposit validator ⟨arguments.1, arguments.2.1, arguments.2.2⟩ accepts

def step (setup : DepositSetup Digest) (s : DepositSystem Digest) :
    Action → DepositSystem Digest
  | .mine logs => { s with home := s.home ++ [logs] }
  | .poll validator script => { s with
      observers := Function.update s.observers validator ((s.observers validator).poll script) }
  | .restart validator after => { s with
      observers := Function.update s.observers validator
        ((s.observers validator).restart after) }
  | .relay validator log accepts =>
    match relayCall setup.abi validator log accepts with
    | none => s
    | some call => { s with foreign := s.foreign.step setup.env call }
  | .call call => { s with foreign := s.foreign.step setup.env call }

/-- The actions that the assumptions admit: nodes report real logs, a validator
relays what its stream has delivered, the owner leaves the registry alone, and
`deposit` is called directly only by a faulty validator or by somebody who is
no validator. -/
def Allowed (setup : DepositSetup Digest) (s : DepositSystem Digest) : Action → Prop
  | .mine _ => True
  | .poll _ script => ∀ answers ∈ script, Truthful s.home answers
  | .restart .. => True
  | .relay validator log _ => log ∈ (s.observers validator).delivered
  | .call (.registry sender _) => sender ≠ setup.registry.owner
  | .call (.deposit sender _ _) =>
    sender ∈ setup.faulty ∨ setup.registry.validators.isValidator sender = false
  | .call _ => True

/-- The filter of the deposit relay. -/
def filter (setup : DepositSetup Digest) : Filter :=
  depositsFilter setup.abi setup.homeContract

/-- Both chains after the deployment.  `after` are the checkpoints that the
validators start from. -/
def start (setup : DepositSetup Digest) (home : Blocks) (after : Address → UInt64) :
    DepositSystem Digest where
  home := home
  foreign := ⟨setup.registry.validators, { ForeignBridge.deployed with
    validatorContract := setup.env.validators
    initialized := true }⟩
  observers := fun validator =>
    .start (filter setup) setup.confirmations (after validator)

def run (setup : DepositSetup Digest) (s : DepositSystem Digest) (actions : List Action) :
    DepositSystem Digest :=
  actions.foldl (step setup) s

/-! ## Every payout is backed -/

/-- There is a confirmed `Deposit` log on home with this recipient and value,
in this transaction. -/
def Backed (setup : DepositSetup Digest) (home : Blocks) (payout : Payout) : Prop :=
  ∃ log, ConfirmedLog home (filter setup) setup.confirmations log ∧
    setup.abi.parseDeposit log.rawLog = some ⟨payout.recipient, payout.value⟩ ∧
    log.transactionHash = some payout.transactionHash

omit [DecidableEq Digest] in
theorem Backed.append {setup : DepositSetup Digest} {home : Blocks} {payout : Payout}
    (h : Backed setup home payout) (more : Blocks) : Backed setup (home ++ more) payout := by
  obtain ⟨log, hconfirmed, hrest⟩ := h
  exact ⟨log, hconfirmed.append more, hrest⟩

/-- The invariant of the system. -/
structure Inv (setup : DepositSetup Digest) (s : DepositSystem Digest) : Prop where
  registry : s.foreign.validators = setup.registry.validators
  observers : ∀ validator,
    (s.observers validator).Inv s.home (filter setup) setup.confirmations
  distinct : ∀ hash, (s.foreign.bridge.deposits hash).Nodup
  confirmed : ∀ payout a,
    a ∈ s.foreign.bridge.deposits (ForeignChain.depositHash setup.env payout) →
    a ∉ setup.faulty → Backed setup s.home payout
  paid : ∀ payout ∈ s.foreign.bridge.payouts, Backed setup s.home payout
  once : ForeignChain.PaidInv setup.env s.foreign

section Safety

variable {setup : DepositSetup Digest} {s : DepositSystem Digest}
  (hkeccak : ∀ p q : Payout, setup.env.keccak256 p.packed = setup.env.keccak256 q.packed → p = q)
  (hfaulty : setup.faulty.card < setup.registry.requiredSignatures)

omit [DecidableEq Digest] in
theorem inv_start (home : Blocks) (after : Address → UInt64) :
    Inv setup (start setup home after) where
  registry := rfl
  observers := fun _ => Observer.inv_start _ _ _ _
  distinct := fun _ => List.nodup_nil
  confirmed := fun _ _ h => by cases h
  paid := fun _ h => by cases h
  once := ⟨fun _ h => (by cases h), List.nodup_nil⟩

omit [DecidableEq Digest] in
theorem inv_mine (h : Inv setup s) (logs : List Log) :
    Inv setup { s with home := s.home ++ [logs] } where
  registry := h.registry
  observers := fun validator => Observer.inv_append (h.observers validator) _
  distinct := h.distinct
  confirmed := fun payout a ha hhonest => (h.confirmed payout a ha hhonest).append _
  paid := fun payout hpaid => (h.paid payout hpaid).append _
  once := h.once

omit [DecidableEq Digest] in
/-- A change of one observer. -/
theorem inv_observe (h : Inv setup s) {validator : Address} {observer : Observer}
    (hobserver : observer.Inv s.home (filter setup) setup.confirmations) :
    Inv setup { s with observers := Function.update s.observers validator observer } where
  registry := h.registry
  observers := Observer.inv_update h.observers hobserver
  distinct := h.distinct
  confirmed := h.confirmed
  paid := h.paid
  once := h.once

include hkeccak hfaulty in
/-- The quorum argument.  The confirmations of a deposit that reaches the
threshold are distinct and more than the faulty validators, so one of them
comes from a validator that has seen the deposit. -/
theorem inv_deposit (h : Inv setup s) {sender : Address} {payout : Payout}
    {foreign : ForeignChain Digest}
    (hdone : ForeignChain.DepositDone setup.env s.foreign sender payout foreign)
    (hbacked : sender ∉ setup.faulty → Backed setup s.home payout) :
    Inv setup { s with foreign := foreign } := by
  have hconfirmed : ∀ p a,
      a ∈ foreign.bridge.deposits (ForeignChain.depositHash setup.env p) →
      a ∉ setup.faulty → Backed setup s.home p := by
    intro p a ha hhonest
    by_cases heq : p = payout
    · subst heq
      rw [hdone.deposits_self, List.mem_append, List.mem_singleton] at ha
      rcases ha with ha | rfl
      · exact h.confirmed p a ha hhonest
      · exact hbacked hhonest
    · have hhash : ForeignChain.depositHash setup.env p
          ≠ ForeignChain.depositHash setup.env payout := fun hhash => heq (hkeccak p payout hhash)
      rw [hdone.deposits_of_ne hhash] at ha
      exact h.confirmed p a ha hhonest
  have hdistinct : ∀ hash, (foreign.bridge.deposits hash).Nodup :=
    fun hash => hdone.nodup (h.distinct hash)
  refine ⟨hdone.validators.trans h.registry, h.observers, hdistinct, hconfirmed, ?_,
    hdone.paidInv h.once⟩
  intro p hp
  have hp : p ∈ foreign.bridge.payouts := hp
  rw [hdone.payouts, List.mem_append] at hp
  rcases hp with hp | hp
  · exact h.paid p hp
  · split at hp
    · rename_i hreached
      obtain rfl : p = payout := List.mem_singleton.1 hp
      have hlength : setup.faulty.card < (foreign.bridge.deposits
          (ForeignChain.depositHash setup.env p)).toFinset.card := by
        rw [List.toFinset_card_of_nodup (hdistinct _), hdone.deposits_self,
          List.length_append, List.length_singleton, hreached, h.registry,
          setup.registry.spec.2.1]
        exact hfaulty
      obtain ⟨a, ha, hhonest⟩ := Finset.exists_mem_notMem_of_card_lt_card hlength
      exact hconfirmed p a (List.mem_toFinset.1 ha) hhonest
    · cases hp

include hkeccak hfaulty in
/-- A transaction on foreign, when a direct `deposit` of an honest validator is
backed. -/
theorem inv_foreignStep (h : Inv setup s) {call : ForeignChain.Call}
    (hregistry : ∀ sender c, call = .registry sender c → sender ≠ setup.registry.owner)
    (hdeposit : ∀ sender payout accepts, call = .deposit sender payout accepts →
      setup.registry.validators.isValidator sender = true → sender ∉ setup.faulty →
      Backed setup s.home payout) :
    Inv setup { s with foreign := s.foreign.step setup.env call } := by
  have honce : ForeignChain.PaidInv setup.env (s.foreign.step setup.env call) := by
    refine ForeignChain.paidInv_step h.once ?_
    cases call with
    | registry sender c =>
      intro hsome
      rw [h.registry, setup.registry.call_eq_none (hregistry sender c rfl)] at hsome
      cases hsome
    | _ => trivial
  rw [ForeignChain.step] at honce ⊢
  cases hexec : s.foreign.exec setup.env call with
  | none => exact h
  | some foreign =>
    rw [hexec, Option.getD_some] at honce
    rw [Option.getD_some]
    by_cases hcall : ∃ sender payout accepts, call = .deposit sender payout accepts
    · obtain ⟨sender, payout, accepts, rfl⟩ := hcall
      have hdone := ForeignChain.deposit_cases hexec
      refine inv_deposit hkeccak hfaulty h hdone fun hhonest => ?_
      have hvalidator := hdone.sender_validator
      rw [h.registry] at hvalidator
      exact hdeposit sender payout accepts rfl hvalidator hhonest
    · push Not at hcall
      obtain ⟨hdeposits, hpayouts, hvalidators⟩ := ForeignChain.exec_frame hexec hcall
      refine ⟨?_, h.observers, ?_, ?_, ?_, honce⟩
      · rcases hvalidators with ⟨sender, c, rfl, hc⟩ | hsame
        · rw [h.registry, setup.registry.call_eq_none (hregistry sender c rfl)] at hc
          cases hc
        · exact hsame.trans h.registry
      · intro hash
        show (foreign.bridge.deposits hash).Nodup
        rw [hdeposits]
        exact h.distinct hash
      · intro p a ha
        have ha : a ∈ foreign.bridge.deposits (ForeignChain.depositHash setup.env p) := ha
        rw [hdeposits] at ha
        exact h.confirmed p a ha
      · intro p hp
        have hp : p ∈ foreign.bridge.payouts := hp
        rw [hpayouts] at hp
        exact h.paid p hp

variable (habi : ∀ recipient value hash, setup.abi.decodeDeposit
    (setup.abi.depositInput recipient value hash) = some (recipient, value, hash))

omit [DecidableEq Digest] in
include habi in
/-- What the payload of a log asks the contract for. -/
theorem relayCall_eq_some {validator : Address} {log : Log} {accepts : Bool}
    {call : ForeignChain.Call}
    (h : relayCall setup.abi validator log accepts = some call) :
    ∃ payout, call = .deposit validator payout accepts ∧
      setup.abi.parseDeposit log.rawLog = some ⟨payout.recipient, payout.value⟩ ∧
      log.transactionHash = some payout.transactionHash := by
  unfold relayCall depositRelayPayload at h
  cases hparse : setup.abi.parseDeposit log.rawLog with
  | none => simp [hparse] at h
  | some event =>
    cases hhash : log.transactionHash with
    | none => simp [hparse, hhash] at h
    | some hash =>
      simp only [hparse, hhash, habi, Option.map_some] at h
      exact ⟨⟨event.recipient, event.value, hash⟩, (Option.some.inj h).symm, rfl, rfl⟩

include hkeccak hfaulty habi in
theorem inv_step {action : Action} (h : Inv setup s) (hallowed : Allowed setup s action) :
    Inv setup (step setup s action) := by
  cases action with
  | mine logs => exact inv_mine h logs
  | poll validator script =>
    exact inv_observe h (Observer.inv_poll (h.observers validator) hallowed)
  | restart validator after =>
    exact inv_observe h (Observer.inv_restart (h.observers validator) after)
  | relay validator log accepts =>
    rw [step]
    split
    · exact h
    · rename_i call hcall
      obtain ⟨payout, rfl, hparse, hhash⟩ := relayCall_eq_some habi hcall
      refine inv_foreignStep hkeccak hfaulty h (fun _ _ heq => by cases heq) ?_
      intro sender p accepts' heq _ _
      obtain ⟨-, rfl, -⟩ := ForeignChain.Call.deposit.inj heq
      exact ⟨log, (h.observers validator).delivered log hallowed, hparse, hhash⟩
  | call call =>
    refine inv_foreignStep hkeccak hfaulty h ?_ ?_
    · intro sender c heq
      subst heq
      exact hallowed
    · intro sender payout accepts heq hvalidator hhonest
      subst heq
      rcases hallowed with hmem | hno
      · exact absurd hmem hhonest
      · rw [hno] at hvalidator
        cases hvalidator

end Safety

/-- The payouts are accounted for, whoever calls what. -/
theorem accounted_run (setup : DepositSetup Digest) (home : Blocks)
    (after : Address → UInt64) (actions : List Action) :
    ForeignChain.Accounted (run setup (start setup home after) actions).foreign.bridge := by
  refine @Runs.foldl_of_step _ _ (step setup)
    (fun s => ForeignChain.Accounted s.foreign.bridge) ?_ actions _ ⟨rfl, rfl⟩
  intro s action h
  cases action with
  | mine | poll | restart => exact h
  | call call => exact ForeignChain.accounted_step call h
  | relay validator log accepts =>
    rw [step]
    split
    · exact h
    · exact ForeignChain.accounted_step _ h

/-- Every payout is backed, and it is made once: in every state that the system
reaches, with fewer faulty validators than the threshold.  The transfers of the
contract are these payouts, and its ether is what it received less them. -/
theorem payouts_backed_and_once (setup : DepositSetup Digest) (home : Blocks)
    (after : Address → UInt64) (actions : List Action)
    (hkeccak : ∀ p q : Payout,
      setup.env.keccak256 p.packed = setup.env.keccak256 q.packed → p = q)
    (habi : ∀ recipient value hash, setup.abi.decodeDeposit
      (setup.abi.depositInput recipient value hash) = some (recipient, value, hash))
    (hfaulty : setup.faulty.card < setup.registry.requiredSignatures)
    (hallowed : Runs.Along (step setup) (Allowed setup) (start setup home after) actions) :
    let s := run setup (start setup home after) actions
    (∀ payout ∈ s.foreign.bridge.payouts, Backed setup s.home payout) ∧
      (∀ payout, s.foreign.bridge.payouts.count payout ≤ 1) ∧
      s.foreign.bridge.transfers = s.foreign.bridge.payouts.map Payout.payment ∧
      s.foreign.bridge.balance + s.foreign.bridge.sent = s.foreign.bridge.received := by
  have haccounted := accounted_run setup home after actions
  have hinv : Inv setup (run setup (start setup home after) actions) :=
    Runs.foldl_of_along (fun _ _ => inv_step hkeccak hfaulty habi) actions _ hallowed
      (inv_start home after)
  exact ⟨hinv.paid, fun payout => List.nodup_iff_count_le_one.1 hinv.once.distinct payout,
    haccounted.transfers, haccounted.ether⟩

/-- Three validators, a threshold of `2`, and one validator that is faulty. -/
def threeValidators : DepositSetup Bytes where
  env := transparentEvm
  abi := .solidity
  registry := .twoOfThree
  homeContract := 0xe1
  confirmations := 1
  faulty := {0xa3}

/-- The `Deposit` log of an ether transfer to `HomeBridge`. -/
def depositLog (recipient : Address) (value : U256) (transactionHash : H256) : Log where
  address := 0xe1
  topics := [Abi.solidity.depositTopic]
  data := [Abi.addressWord recipient, value].flatMap wordBytes
  transactionHash := some transactionHash

/-- A home chain with a deposit in block `1`, which has one confirmation. -/
def oneDeposit : Blocks := [[], [depositLog 0xc2 5 7], []]

/-- The node at the end of that chain. -/
def oneDepositNode : LogStream.Answers where
  interval := .ok (.ready (some ()))
  blockNumber := .ok (.ready 2)
  logs := fun f fromBlock toBlock =>
    if f = filter threeValidators ∧ fromBlock = 1 ∧ toBlock = 1 then
      .ok (.ready [depositLog 0xc2 5 7])
    else .ok .notReady

theorem truthful_oneDepositNode : Truthful oneDeposit oneDepositNode := by
  refine ⟨?_, ?_⟩
  · intro n hn
    cases hn
    decide
  · intro f fromBlock toBlock logs hlogs log hlog
    simp only [oneDepositNode] at hlogs
    split at hlogs
    · rename_i heq
      obtain ⟨rfl, rfl, rfl⟩ := heq
      cases hlogs
      obtain rfl := List.mem_singleton.1 hlog
      exact ⟨by decide +kernel, 1, le_rfl, le_rfl, by decide +kernel⟩
    · cases hlogs

/-- The faulty validator confirms a deposit that never was and the real one; a
validator confirms the real one twice, with a restart in between. -/
def oneDepositRun : List Action :=
  [ .call (.fallback 0xc1 100 [])
  , .call (.deposit 0xa3 ⟨0xc3, 50, 7⟩ true)
  , .poll 0xa1 (List.replicate 4 oneDepositNode)
  , .relay 0xa1 (depositLog 0xc2 5 7) true
  , .restart 0xa1 0
  , .relay 0xa1 (depositLog 0xc2 5 7) true
  , .call (.deposit 0xa3 ⟨0xc2, 5, 7⟩ true) ]

theorem payouts_backed_and_once_oneDepositRun :
    let s := run threeValidators (start threeValidators oneDeposit fun _ => 0) oneDepositRun
    s.foreign.bridge.payouts = [⟨0xc2, 5, 7⟩] ∧
      s.foreign.bridge.transfers = [(0xc2, 5)] ∧ s.foreign.bridge.balance = 95 ∧
      ∀ payout ∈ s.foreign.bridge.payouts, Backed threeValidators s.home payout := by
  refine ⟨by decide +kernel, by decide +kernel, by decide +kernel, ?_⟩
  refine (payouts_backed_and_once threeValidators oneDeposit (fun _ => 0) oneDepositRun
    (fun p q h => Payout.packed_injective h) Abi.decodeDeposit_depositInput (by decide) ?_).1
  refine ⟨trivial, .inl (by decide), ?_, ?_, trivial, ?_, .inl (by decide), trivial⟩
  · intro answers hmem
    rw [List.eq_of_mem_replicate hmem]
    exact truthful_oneDepositNode
  · show depositLog 0xc2 5 7 ∈ Observer.delivered _
    decide +kernel
  · show depositLog 0xc2 5 7 ∈ Observer.delivered _
    decide +kernel

end DepositSystem

end PoaBridge.Truffle
