import Mathlib.Data.Finset.Card
import PoaBridge.Observer
import PoaBridge.Truffle.Home
import PoaBridge.WithdrawConfirm

/-!
# Withdrawals, from foreign to home

The system of the foreign chain, the home chain and the validators in between,
for a registry that does not change.

A validator that follows the protocol reads the foreign chain through its
`LogStream` and signs the digests of the messages of the logs that the stream
delivered.  The system remembers these digests.  The faulty validators sign
what they want, and anybody calls `withdraw` with any arrays and any byte
string as the message.  Signatures are unforgeable: arrays that are submitted
recover to a validator that follows the protocol only for a digest that it has
signed.

`withdrawals_authentic` says that every payment on home was asked for by a
confirmed `Withdraw` log on foreign.  It rests on the byte layout of the
message (`getRecipient_toBytes` and its siblings): the digest fixes the whole
byte string, although the contract does not check its length.
-/

namespace PoaBridge.Truffle

variable {Digest : Type}

/-! ## The system -/

/-- The parties and their configuration. -/
structure WithdrawSetup (Digest : Type) where
  env : Evm Digest
  abi : Abi
  registry : FixedRegistry
  /-- The address of `ForeignBridge`. -/
  foreignContract : Address
  /-- `required_confirmations` of the foreign node. -/
  confirmations : UInt64
  /-- The validators that do not follow the protocol. -/
  faulty : Finset Address

structure WithdrawSystem (Digest : Type) where
  foreign : Blocks
  home : HomeChain
  observers : Address → Observer
  /-- The digests that a validator has signed by the protocol. -/
  signed : Address → List Digest

namespace WithdrawSystem

/-- What can happen next. -/
inductive Action where
  /-- The foreign chain grows by one block. -/
  | mine (logs : List Log)
  /-- The process of a validator is polled. -/
  | poll (validator : Address) (script : List LogStream.Answers)
  /-- The process of a validator is started again. -/
  | restart (validator : Address) (after : UInt64)
  /-- A validator signs the message of a log. -/
  | sign (validator : Address) (log : Log)
  /-- A transaction of anybody is mined on home. -/
  | call (call : HomeChain.Call)

def step (setup : WithdrawSetup Digest) (s : WithdrawSystem Digest) :
    Action → WithdrawSystem Digest
  | .mine logs => { s with foreign := s.foreign ++ [logs] }
  | .poll validator script => { s with
      observers := Function.update s.observers validator ((s.observers validator).poll script) }
  | .restart validator after => { s with
      observers := Function.update s.observers validator
        ((s.observers validator).restart after) }
  | .sign validator log =>
    match withdrawMessage setup.abi log with
    | .error _ => s
    | .ok message => { s with
        signed := Function.update s.signed validator
          (s.signed validator ++ [ethDataHash setup.env.keccak256 message]) }
  | .call call => { s with home := s.home.step setup.env call }

/-- A validator that follows the protocol. -/
def Honest (setup : WithdrawSetup Digest) (validator : Address) : Prop :=
  setup.registry.validators.isValidator validator = true ∧ validator ∉ setup.faulty

/-- The owner leaves the registry alone, and no signature of an honest
validator is forged. -/
def Unforged (setup : WithdrawSetup Digest) (signed : Address → List Digest) :
    HomeChain.Call → Prop
  | .registry sender _ => sender ≠ setup.registry.owner
  | .withdraw vs rs ss message _ _ _ =>
    ∀ i validator, Honest setup validator →
      recoverAt setup.env.ecrecover (hashMessage setup.env.keccak256 message) vs rs ss i
        = some validator →
      hashMessage setup.env.keccak256 message ∈ signed validator
  | _ => True

/-- The actions that the assumptions admit. -/
def Allowed (setup : WithdrawSetup Digest) (s : WithdrawSystem Digest) : Action → Prop
  | .mine _ => True
  | .poll _ script => ∀ answers ∈ script, Truthful s.foreign answers
  | .restart .. => True
  | .sign validator log => log ∈ (s.observers validator).delivered
  | .call call => call.Forall (Unforged setup s.signed)

/-- The filter of the confirmation of withdrawals. -/
def filter (setup : WithdrawSetup Digest) : Filter :=
  withdrawsFilter setup.abi setup.foreignContract

/-- Both chains after the deployment.  `after` are the checkpoints that the
validators start from. -/
def start (setup : WithdrawSetup Digest) (foreign : Blocks) (after : Address → UInt64) :
    WithdrawSystem Digest where
  foreign := foreign
  home := ⟨setup.registry.validators, { HomeBridge.deployed with
    validatorContract := setup.env.validators
    initialized := true }⟩
  observers := fun validator =>
    .start (filter setup) setup.confirmations (after validator)
  signed := fun _ => []

def run (setup : WithdrawSetup Digest) (s : WithdrawSystem Digest) (actions : List Action) :
    WithdrawSystem Digest :=
  actions.foldl (step setup) s

/-! ## Every payment is authentic -/

/-- An honest validator has seen a confirmed `Withdraw` log on foreign with this
recipient and value, in this transaction. -/
def Authentic (setup : WithdrawSetup Digest) (s : WithdrawSystem Digest)
    (withdrawal : Withdrawal) : Prop :=
  ∃ validator, Honest setup validator ∧
    ∃ log ∈ (s.observers validator).delivered,
      ConfirmedLog s.foreign (filter setup) setup.confirmations log ∧
      (∃ homeGasPrice, setup.abi.parseWithdraw log.rawLog
        = some ⟨withdrawal.recipient, withdrawal.value, homeGasPrice⟩) ∧
      log.transactionHash = some withdrawal.transactionHash

/-- The invariant of the system. -/
structure Inv (setup : WithdrawSetup Digest) (s : WithdrawSystem Digest) : Prop where
  registry : s.home.validators = setup.registry.validators
  observers : ∀ validator,
    (s.observers validator).Inv s.foreign (filter setup) setup.confirmations
  signed : ∀ validator, ∀ digest ∈ s.signed validator,
    ∃ log ∈ (s.observers validator).delivered, ∃ message,
      MessageToMainnet.fromLog setup.abi log = .ok message ∧
        digest = ethDataHash setup.env.keccak256 message.toBytes
  paid : ∀ withdrawal ∈ s.home.bridge.withdrawals, Authentic setup s withdrawal
  books : HomeChain.Books [] s.home

section Safety

variable {setup : WithdrawSetup Digest} {s : WithdrawSystem Digest}

theorem inv_start (foreign : Blocks) (after : Address → UInt64) :
    Inv setup (start setup foreign after) where
  registry := rfl
  observers := fun _ => Observer.inv_start _ _ _ _
  signed := fun _ _ h => by cases h
  paid := fun _ h => by cases h
  books := ⟨fun hash => iff_of_false Bool.false_ne_true (by
    show hash ∉ []
    exact List.not_mem_nil), List.nodup_nil, rfl⟩

theorem inv_mine (h : Inv setup s) (logs : List Log) :
    Inv setup { s with foreign := s.foreign ++ [logs] } where
  registry := h.registry
  observers := fun validator => Observer.inv_append (h.observers validator) _
  signed := h.signed
  paid := by
    intro withdrawal hpaid
    obtain ⟨validator, hhonest, log, hlog, hconfirmed, hrest⟩ := h.paid withdrawal hpaid
    exact ⟨validator, hhonest, log, hlog, hconfirmed.append _, hrest⟩
  books := h.books

/-- A change of one observer that forgets nothing. -/
theorem inv_observe (h : Inv setup s) {validator : Address} {observer : Observer}
    (hobserver : observer.Inv s.foreign (filter setup) setup.confirmations)
    (hkeeps : ∀ log ∈ (s.observers validator).delivered, log ∈ observer.delivered) :
    Inv setup { s with observers := Function.update s.observers validator observer } := by
  have hkeeps' : ∀ v, ∀ log ∈ (s.observers v).delivered,
      log ∈ (Function.update s.observers validator observer v).delivered := by
    intro v log hlog
    by_cases heq : v = validator
    · subst heq
      rw [Function.update_self]
      exact hkeeps log hlog
    · rw [Function.update_of_ne heq]
      exact hlog
  refine ⟨h.registry, Observer.inv_update h.observers hobserver, ?_, ?_, h.books⟩
  · intro v digest hdigest
    obtain ⟨log, hlog, hrest⟩ := h.signed v digest hdigest
    exact ⟨log, hkeeps' v log hlog, hrest⟩
  · intro withdrawal hpaid
    obtain ⟨v, hhonest, log, hlog, hrest⟩ := h.paid withdrawal hpaid
    exact ⟨v, hhonest, log, hkeeps' v log hlog, hrest⟩

theorem inv_sign (h : Inv setup s) {validator : Address} {log : Log} {bytes : Bytes}
    (hlog : log ∈ (s.observers validator).delivered)
    (hbytes : withdrawMessage setup.abi log = .ok bytes) :
    Inv setup { s with
      signed := Function.update s.signed validator
        (s.signed validator ++ [ethDataHash setup.env.keccak256 bytes]) } := by
  refine ⟨h.registry, h.observers, ?_, h.paid, h.books⟩
  intro v digest hdigest
  have hdigest : digest ∈ Function.update s.signed validator
    (s.signed validator ++ [ethDataHash setup.env.keccak256 bytes]) v := hdigest
  by_cases heq : v = validator
  · subst heq
    rw [Function.update_self, List.mem_append, List.mem_singleton] at hdigest
    rcases hdigest with hdigest | hdigest
    · exact h.signed v digest hdigest
    · obtain ⟨message, hmessage, rfl⟩ := withdrawMessage_eq_ok hbytes
      exact ⟨log, hlog, message, hmessage, hdigest⟩
  · rw [Function.update_of_ne heq] at hdigest
    exact h.signed v digest hdigest

/-- The digest fixes the whole message, so its length need not be checked. -/
theorem eq_toBytes_of_hashMessage (hkeccak : Function.Injective setup.env.keccak256)
    {message : Bytes} {m : MessageToMainnet}
    (h : hashMessage setup.env.keccak256 message = ethDataHash setup.env.keccak256 m.toBytes) :
    message = m.toBytes := by
  rw [← HomeChain.hashMessage_toBytes] at h
  exact List.append_cancel_left (hkeccak h)

/-- The quorum argument.  The signers of a message that is accepted are distinct
and more than the faulty validators, so one of them has signed the message by
the protocol. -/
theorem authentic_of_opened (hkeccak : Function.Injective setup.env.keccak256)
    (hfaulty : setup.faulty.card < setup.registry.requiredSignatures) (h : Inv setup s)
    {chain chain' : HomeChain} {vs : List UInt8} {rs ss : List H256} {message : Bytes}
    {rest : BigEndian.Memory} {code : List HomeChain.Call} {accepts : Bool}
    {withdrawal : Withdrawal} (hregistry : chain.validators = setup.registry.validators)
    (hunforged : Unforged setup s.signed (.withdraw vs rs ss message rest code accepts))
    (hopened : HomeChain.Opened setup.env chain vs rs ss message rest chain' withdrawal) :
    Authentic setup s withdrawal := by
  have hquorum := hopened.quorum
  rw [hregistry, hasEnoughValidSignatures_iff, setup.registry.spec.2.1] at hquorum
  obtain ⟨-, signers, hlength, hsigners⟩ := hquorum
  have hcard : setup.faulty.card < signers.toFinset.card := by
    rw [List.toFinset_card_of_nodup hsigners.distinct, hlength]
    exact hfaulty
  obtain ⟨a, ha, hnotfaulty⟩ := Finset.exists_mem_notMem_of_card_lt_card hcard
  have ha := List.mem_toFinset.1 ha
  obtain ⟨j, hj, hget⟩ := List.mem_iff_getElem.1 ha
  have hrecovered := hsigners.recovered j hj
  rw [hget] at hrecovered
  have hhonest : Honest setup a := ⟨hsigners.valid a ha, hnotfaulty⟩
  obtain ⟨log, hlog, m, hm, hdigest⟩ := h.signed a _ (hunforged _ a hhonest hrecovered)
  obtain rfl := eq_toBytes_of_hashMessage hkeccak hdigest
  have hread := hopened.read
  rw [m.getRecipient_toBytes, m.getValue_toBytes, m.getTransactionHash_toBytes] at hread
  subst hread
  obtain ⟨hparse, hhash⟩ := MessageToMainnet.fromLog_eq_ok hm
  exact ⟨a, hhonest, log, hlog, (h.observers a).delivered log hlog, ⟨_, hparse⟩, hhash⟩

/-- Payments stay authentic in the middle of a call. -/
theorem authentic_kept (hkeccak : Function.Injective setup.env.keccak256)
    (hfaulty : setup.faulty.card < setup.registry.requiredSignatures) (h : Inv setup s) :
    HomeChain.KeptByCalls setup.env (Unforged setup s.signed) fun pending chain =>
      chain.validators = setup.registry.validators ∧
        ∀ withdrawal ∈ chain.bridge.withdrawals ++ pending, Authentic setup s withdrawal where
  registry := fun {_ _ sender call _} hinv howner hcall => by
    rw [hinv.1, setup.registry.call_eq_none howner call] at hcall
    cases hcall
  initializeBridge := fun hinv hcall => by
    rw [HomeChain.initializeBridge, require_bind_eq_some] at hcall
    rw [← Option.some.inj hcall.2]
    exact hinv
  fallback := fun {pending chain sender value data bridge} hinv hcall => by
    simp only [HomeBridge.fallback, require_bind_eq_some] at hcall
    rw [← Option.some.inj hcall.2.2]
    refine ⟨hinv.1, ?_⟩
    rw [HomeChain.withdrawals_emit_deposit]
    exact hinv.2
  openWithdraw := fun {pending chain vs rs ss message rest code accepts chain' withdrawal}
      hinv hunforged hopened => by
    have hnew := authentic_of_opened hkeccak hfaulty h hinv.1 hunforged hopened
    rw [hopened.result]
    refine ⟨hinv.1, fun w hw => ?_⟩
    rcases List.mem_append.1 hw with hw | hw
    · exact hinv.2 w (List.mem_append_left _ hw)
    · rcases List.mem_cons.1 hw with rfl | hw
      · exact hnew
      · exact hinv.2 w (List.mem_append_right _ hw)
  closeWithdraw := fun {pending chain withdrawal} hinv => by
    refine ⟨hinv.1, ?_⟩
    rw [HomeChain.closeWithdraw, HomeChain.withdrawals_emit_withdraw, List.append_assoc]
    exact hinv.2

theorem inv_step (hkeccak : Function.Injective setup.env.keccak256)
    (hfaulty : setup.faulty.card < setup.registry.requiredSignatures) {action : Action}
    (h : Inv setup s) (hallowed : Allowed setup s action) :
    Inv setup (step setup s action) := by
  cases action with
  | mine logs => exact inv_mine h logs
  | poll validator script =>
    exact inv_observe h (Observer.inv_poll (h.observers validator) hallowed)
      fun log hlog => List.mem_append_left _ hlog
  | restart validator after =>
    exact inv_observe h (Observer.inv_restart (h.observers validator) after)
      fun log hlog => hlog
  | sign validator log =>
    rw [step]
    split
    · exact h
    · rename_i bytes hbytes
      exact inv_sign h hallowed hbytes
  | call call =>
    have hauthentic := HomeChain.step_induction (authentic_kept hkeccak hfaulty h)
      ⟨h.registry, by rw [List.append_nil]; exact h.paid⟩ hallowed
    have hbooks := HomeChain.step_induction (HomeChain.books_kept setup.env) h.books
      call.forall_true
    rw [List.append_nil] at hauthentic
    exact ⟨hauthentic.1, h.observers, h.signed, hauthentic.2, hbooks⟩

end Safety

/-- Every payment on home is authentic: in every state that the system reaches,
with fewer faulty validators than the threshold, each paid withdrawal has its
transaction hash marked, and an honest validator has seen the confirmed
`Withdraw` log that asked for exactly this payment.  The ether of the contract is
what it received less these payments. -/
theorem withdrawals_authentic (setup : WithdrawSetup Digest) (foreign : Blocks)
    (after : Address → UInt64) (actions : List Action)
    (hkeccak : Function.Injective setup.env.keccak256)
    (hfaulty : setup.faulty.card < setup.registry.requiredSignatures)
    (hallowed : Runs.Along (step setup) (Allowed setup) (start setup foreign after) actions) :
    let s := run setup (start setup foreign after) actions
    (∀ withdrawal ∈ s.home.bridge.withdrawals,
      s.home.bridge.withdraws withdrawal.transactionHash = true ∧
        Authentic setup s withdrawal) ∧
      s.home.bridge.balance + s.home.bridge.withdrawn = s.home.bridge.deposited := by
  have hinv : Inv setup (run setup (start setup foreign after) actions) :=
    Runs.foldl_of_along (fun _ _ => inv_step hkeccak hfaulty) actions _ hallowed
      (inv_start foreign after)
  refine ⟨fun withdrawal hpaid => ⟨?_, hinv.paid withdrawal hpaid⟩, hinv.books.ether⟩
  rw [hinv.books.marked, List.map_nil, List.append_nil]
  exact List.mem_map_of_mem hpaid

/-- Three validators, a threshold of `2`, and one validator that is faulty. -/
def threeSigners : WithdrawSetup Bytes where
  env := transparentEvm
  abi := .solidity
  registry := .twoOfThree
  foreignContract := 0xd1
  confirmations := 1
  faulty := {0xa3}

/-- A foreign chain with a withdrawal in block `1`, which has one
confirmation. -/
def oneWithdraw : Blocks := [[], [HomeChain.withdrawLog 0xc2 5 7], []]

/-- The node at the end of that chain. -/
def oneWithdrawNode : LogStream.Answers where
  interval := .ok (.ready (some ()))
  blockNumber := .ok (.ready 2)
  logs := fun f fromBlock toBlock =>
    if f = filter threeSigners ∧ fromBlock = 1 ∧ toBlock = 1 then
      .ok (.ready [HomeChain.withdrawLog 0xc2 5 7])
    else .ok .notReady

theorem truthful_oneWithdrawNode : Truthful oneWithdraw oneWithdrawNode := by
  refine ⟨?_, ?_⟩
  · intro n hn
    cases hn
    decide
  · intro f fromBlock toBlock logs hlogs log hlog
    simp only [oneWithdrawNode] at hlogs
    split at hlogs
    · rename_i heq
      obtain ⟨rfl, rfl, rfl⟩ := heq
      cases hlogs
      obtain rfl := List.mem_singleton.1 hlog
      exact ⟨by decide +kernel, 1, le_rfl, le_rfl, by decide +kernel⟩
    · cases hlogs

/-- The message of the withdrawal. -/
def oneMessage : MessageToMainnet := ⟨0xc2, 5, 7, 0⟩

/-- One validator signs by the protocol, and the faulty one signs too. -/
def oneWithdrawRun : List Action :=
  [ .call (.fallback 0xc1 100 [])
  , .poll 0xa1 (List.replicate 4 oneWithdrawNode)
  , .sign 0xa1 (HomeChain.withdrawLog 0xc2 5 7)
  , .call (.withdraw [27, 27] [0xa1, 0xa3] [0, 0] oneMessage.toBytes (fun _ => 0) [] true) ]

/-- The state in which the withdrawal is submitted. -/
def oneSigned : WithdrawSystem Bytes :=
  run threeSigners (start threeSigners oneWithdraw fun _ => 0) (oneWithdrawRun.take 3)

theorem unforged_oneWithdrawRun : Unforged threeSigners oneSigned.signed
    (.withdraw [27, 27] [0xa1, 0xa3] [0, 0] oneMessage.toBytes (fun _ => 0) [] true) := by
  intro i validator hhonest hrecovered
  rcases i with _ | _ | i
  · obtain rfl : 0xa1 = validator := Option.some.inj hrecovered
    decide +kernel
  · obtain rfl : 0xa3 = validator := Option.some.inj hrecovered
    exact absurd hhonest.2 (by decide)
  · cases hrecovered

theorem withdrawals_authentic_oneWithdrawRun :
    let s := run threeSigners (start threeSigners oneWithdraw fun _ => 0) oneWithdrawRun
    s.home.bridge.withdrawals = [⟨0xc2, 5, 7⟩] ∧ s.home.bridge.balance = 95 ∧
      ∀ withdrawal ∈ s.home.bridge.withdrawals,
        s.home.bridge.withdraws withdrawal.transactionHash = true ∧
          Authentic threeSigners s withdrawal := by
  refine ⟨by decide +kernel, by decide +kernel, ?_⟩
  refine (withdrawals_authentic threeSigners oneWithdraw (fun _ => 0) oneWithdrawRun
    Function.injective_id (by decide) ?_).1
  refine ⟨.fallback trivial, ?_, ?_, .withdraw unforged_oneWithdrawRun (by simp), trivial⟩
  · intro answers hmem
    rw [List.eq_of_mem_replicate hmem]
    exact truthful_oneWithdrawNode
  · show HomeChain.withdrawLog 0xc2 5 7 ∈ Observer.delivered _
    decide +kernel

end WithdrawSystem

end PoaBridge.Truffle
