import PoaBridge.Contracts.Custody
import PoaBridge.Contracts.HomeRuns
import PoaBridge.DepositRelay
import PoaBridge.Observer

/-!
# What the two chains show

The logs of the two contracts of `contracts/bridge.sol`, and what can be said about
their calls without looking at the authorities.

A `Journal` is what is public of a chain: the logs of its final blocks, and those of
the block that is being built.  The logs of an event have the encoding of
`Abi.solidity`, and `relayedPayout` is what the deposit relay and the contract
together make of a log.

A transaction of the foreign chain is a tree of calls.  `exec_induction` is the
induction over the calls of the bridge in it.  With it `Confirms` says that every
authority that was counted for a deposit was good for it, and
`Confirms.exists_honest` is the quorum argument for transfers of tokens.
`signers_of_enough` is the part of the same argument for `withdraw`.
-/

namespace PoaBridge.Contracts

open BigEndian
open Truffle (Payout)

variable {Digest : Type}

/-! ## Logs -/

/-- What is public of a chain. -/
structure Journal where
  blocks : Blocks
  /-- The logs of the block that is being built. -/
  pending : List Log

namespace Journal

def empty : Journal := ⟨[], []⟩

/-- All logs so far. -/
def logs (self : Journal) : List Log := self.blocks.flatten ++ self.pending

/-- A transaction is executed. -/
def append (self : Journal) (logs : List Log) : Journal :=
  { self with pending := self.pending ++ logs }

/-- The block is final, with the logs of the other contracts. -/
def mine (self : Journal) (others : List Log) : Journal :=
  ⟨self.blocks ++ [self.pending ++ others], []⟩

@[simp] theorem logs_append (self : Journal) (logs : List Log) :
    (self.append logs).logs = self.logs ++ logs :=
  (List.append_assoc ..).symm

@[simp] theorem logs_mine (self : Journal) (others : List Log) :
    (self.mine others).logs = self.logs ++ others := by
  unfold Journal.logs mine
  rw [List.flatten_append, List.append_nil, List.append_assoc]
  simp

/-- The logs of the blocks are among the logs. -/
theorem mem_logs_of_confirmed {self : Journal} {filter : Filter} {confirmations : UInt64}
    {log : Log} (h : ConfirmedLog self.blocks filter confirmations log) : log ∈ self.logs := by
  obtain ⟨-, b, hlt, hmem⟩ := h
  rw [List.getD_eq_getElem _ _ (by omega)] at hmem
  exact List.mem_append_left _ (List.mem_flatten.2 ⟨_, List.getElem_mem _, hmem⟩)

end Journal

/-- The log of the event, if it is one that the deposit relay filters for. -/
def HomeEvent.log? (abi : Abi) (contract : Address) (hash : H256) : HomeEvent → Option Log
  | .deposit recipient value => some {
      address := contract
      topics := [abi.depositTopic]
      data := [Abi.addressWord recipient, value].flatMap wordBytes
      transactionHash := some hash }
  | .withdraw .. => none

/-- The log of the event, if it is one that the confirmation of withdrawals filters
for. -/
def TokenEvent.log? (abi : Abi) (contract : Address) (hash : H256) : TokenEvent → Option Log
  | .withdraw recipient value homeGasPrice => some {
      address := contract
      topics := [abi.withdrawTopic]
      data := [Abi.addressWord recipient, value, homeGasPrice].flatMap wordBytes
      transactionHash := some hash }
  | _ => none

/-- The arguments of `deposit` that the relay sends for a log. -/
def relayedPayout (abi : Abi) (log : Log) : Option Payout :=
  match depositRelayPayload abi log with
  | .error _ => none
  | .ok payload => (abi.decodeDeposit payload).map fun arguments =>
    ⟨arguments.1, arguments.2.1, arguments.2.2⟩

theorem relayedPayout_eq_some {abi : Abi} (habi : abi.RoundTrips) {log : Log}
    {payout : Payout} : relayedPayout abi log = some payout ↔
      abi.parseDeposit log.rawLog = some ⟨payout.recipient, payout.value⟩ ∧
        log.transactionHash = some payout.transactionHash := by
  unfold relayedPayout depositRelayPayload
  cases hparse : abi.parseDeposit log.rawLog with
  | none => simp
  | some event =>
    cases hhash : log.transactionHash with
    | none => simp
    | some hash =>
      simp only [habi.decodeDeposit, Option.map_some, Option.some.injEq]
      constructor
      · rintro rfl
        exact ⟨rfl, rfl⟩
      · rintro ⟨hevent, hhash'⟩
        rw [hevent, hhash']

/-- A log of the filter's event and contract. -/
theorem web3Filter_matches (topic : H256) (contract : Address) (data : Bytes)
    (transactionHash : Option H256) :
    (web3Filter topic [contract]).matches ⟨contract, [topic], data, transactionHash⟩ = true := by
  simp [Filter.matches, web3Filter, topicMatches, List.range_succ]

/-! ## Calls inside calls -/

namespace Custody

mutual

/-- Every call of the bridge in the transaction meets the condition. -/
def Call.Forall {deployment : Deployment} (P : ForeignChain.Call → Prop) :
    Call deployment → Prop
  | .token _ _ => True
  | .approveAndCall _ _ _ code _ => Call.ForallAll P code
  | .bridge call _ => P call

def Call.ForallAll {deployment : Deployment} (P : ForeignChain.Call → Prop) :
    List (Call deployment) → Prop
  | [] => True
  | call :: calls => Call.Forall P call ∧ Call.ForallAll P calls

end

variable [DecidableEq Digest]

/-- What every part of a transaction keeps. -/
structure KeptByCalls (env : CustodyEnv Digest) (P : ForeignChain.Call → Prop)
    (Inv : Chain Digest → Prop) : Prop where
  tokens : ∀ {chain : Chain Digest} (tokens : BridgeableToken), Inv chain →
    Inv { chain with tokens := tokens }
  bridge : ∀ {chain chain' : Chain Digest} {call : ForeignChain.Call}, Inv chain → P call →
    chain.exec env.foreign call = some chain' → Inv chain'
  receiveApproval : ∀ {sender source : Address} {value : U256},
    P (.receiveApproval sender source value)

mutual

theorem exec_induction {env : CustodyEnv Digest} {P : ForeignChain.Call → Prop}
    {Inv : Chain Digest → Prop} (hkept : KeptByCalls env P Inv) {chain chain' : Chain Digest}
    (h : Inv chain) : ∀ call : Call env.toDeployment, call.Forall P →
      exec env chain call = some chain' → Inv chain'
  | .token sender call, _, hcall => by
    rw [exec] at hcall
    obtain ⟨tokens, -, hcall⟩ := Option.bind_eq_some_iff.1 hcall
    rw [← Option.some.inj hcall]
    exact hkept.tokens tokens h
  | .approveAndCall sender spender tokens code accepts, hforall, hcall => by
    have happroved : Inv (approve chain sender.val spender tokens) := hkept.tokens _ h
    rw [exec] at hcall
    split at hcall
    · exact hkept.bridge happroved hkept.receiveApproval hcall
    · split at hcall
      · cases hcall
      · rw [require_bind_eq_some] at hcall
        rw [← Option.some.inj hcall.2]
        rw [Call.Forall] at hforall
        exact execAll_induction hkept happroved code hforall
  | .bridge call hexternal, hforall, hcall => by
    rw [exec] at hcall
    rw [Call.Forall] at hforall
    exact hkept.bridge h hforall hcall

theorem execAll_induction {env : CustodyEnv Digest} {P : ForeignChain.Call → Prop}
    {Inv : Chain Digest → Prop} (hkept : KeptByCalls env P Inv) {chain : Chain Digest}
    (h : Inv chain) : ∀ calls : List (Call env.toDeployment), Call.ForallAll P calls →
      Inv (execAll env chain calls)
  | [], _ => by
    rw [execAll]
    exact h
  | call :: calls, hforall => by
    rw [Call.ForallAll] at hforall
    rw [execAll]
    cases hcall : exec env chain call with
    | none => exact execAll_induction hkept h calls hforall.2
    | some chain' =>
      exact execAll_induction hkept (exec_induction hkept h call hforall.1 hcall) calls hforall.2

end

end Custody

/-! ## The deposits of the foreign chain -/

/-- What the event of a transfer says. -/
def payoutEntry (payout : Payout) : Address × ℕ := (payout.recipient, payout.value.toNat)

namespace ForeignChain

variable {τ : Type} {env : ForeignEnv Digest τ} {start chain chain' : ForeignChain Digest τ}

/-- The `Deposit` events are the transfers. -/
def Announced (chain : ForeignChain Digest τ) : Prop :=
  chain.bridge.deposits = chain.transfers.map payoutEntry

/-- The authorities that have confirmed a deposit are counted, and they are good for
it. -/
def Confirms (env : ForeignEnv Digest τ) (start : ForeignChain Digest τ)
    (Good : Address → Payout → Prop) (chain : ForeignChain Digest τ) : Prop :=
  ∀ payout, ∃ signers, Counted env start payout signers chain ∧ ∀ a ∈ signers, Good a payout

theorem Confirms.mono {Good Good' : Address → Payout → Prop}
    (h : Confirms env start Good chain) (hgood : ∀ a payout, Good a payout → Good' a payout) :
    Confirms env start Good' chain := by
  intro payout
  obtain ⟨signers, hcounted, hsigners⟩ := h payout
  exact ⟨signers, hcounted, fun a ha => hgood a payout (hsigners a ha)⟩

variable [DecidableEq Digest]

theorem announced_exec {call : Call} (h : chain.Announced)
    (hcall : chain.exec env call = some chain') : chain'.Announced := by
  have hcall' : chain.accept env (.call call) = some chain' := hcall
  have hframe : (∀ sender payout, call ≠ .deposit sender payout) →
      chain'.transfers = chain.transfers := fun hne =>
    (accept_frame hcall' fun sender payout heq =>
      hne sender payout (Input.call.inj heq)).transfers
  unfold Announced at h ⊢
  cases call with
  | setTokenAddress sender token =>
    rw [hframe (fun _ _ heq => by cases heq)]
    obtain ⟨bridge, hbridge, hcall⟩ := Option.bind_eq_some_iff.1 hcall
    rw [← Option.some.inj hcall]
    unfold ForeignContract.setTokenAddress at hbridge
    simp only [require_bind_eq_some] at hbridge
    obtain ⟨-, -, hbridge⟩ := hbridge
    split at hbridge
    all_goals
      rw [← Option.some.inj hbridge]
      rw [← h]
    · exact (ForeignContract.deposits_append rfl).trans (List.append_nil _)
    · rfl
  | deposit sender payout =>
    have hdone := deposit_cases hcall
    rw [ForeignContract.deposits_append hdone.logs, hdone.transfers, List.map_append, h]
    split <;> rfl
  | receiveApproval sender source value =>
    have hdone := receiveApproval_cases hcall
    rw [hframe (fun _ _ heq => by cases heq), ← h, hdone.bridge]
    exact (ForeignContract.deposits_append rfl).trans (List.append_nil _)
  | submitSignature submission =>
    rw [hframe (fun _ _ heq => by cases heq), ← h]
    obtain ⟨collection, -, hcall⟩ := Option.bind_eq_some_iff.1 hcall
    rw [← Option.some.inj hcall]
    rfl

/-- A call keeps the confirmations good when its sender is good for what it
confirms. -/
theorem confirms_exec (hkeccak : Function.Injective env.keccak256)
    (hbytes : Function.Injective env.digestBytes) {Good : Address → Payout → Prop} {call : Call}
    (h : Confirms env start Good chain)
    (hgood : ∀ sender payout, call = .deposit sender payout →
      start.bridge.authorities sender = true → Good sender payout)
    (hcall : chain.exec env call = some chain') : Confirms env start Good chain' := by
  intro payout
  obtain ⟨signers, hcounted, hsigners⟩ := h payout
  by_cases hdeposit : ∃ sender payout', call = .deposit sender payout'
  · obtain ⟨sender, payout', rfl⟩ := hdeposit
    have hdone := deposit_cases hcall
    by_cases hother : payout' = payout
    · subst hother
      refine ⟨insert sender signers, (hcounted.confirm hkeccak hbytes hdone).2, ?_⟩
      intro a ha
      rcases Finset.mem_insert.1 ha with rfl | ha
      · exact hgood a payout' rfl (hcounted.authorities ▸ hdone.authority)
      · exact hsigners a ha
    · exact ⟨signers, hcounted.other hkeccak hbytes hdone hother, hsigners⟩
  · have hcall' : chain.accept env (.call call) = some chain' := hcall
    have hframe := accept_frame hcall' fun sender payout' heq =>
      hdeposit ⟨sender, payout', Input.call.inj heq⟩
    exact ⟨signers, hcounted.frame hframe, hsigners⟩

omit [DecidableEq Digest] in
/-- After the deployment nobody has confirmed anything. -/
theorem deploy_confirms {requiredSignatures : Nat} {authorities : List Address} {tokens : τ}
    (hdeploy : deploy requiredSignatures authorities tokens = some start)
    (Good : Address → Payout → Prop) : Confirms env start Good start := by
  obtain ⟨hone, hrequired, -, hmarks, hnumbers, htransfers⟩ := deploy_spec hdeploy
  intro payout
  refine ⟨∅, ⟨rfl, rfl, fun a ha => absurd ha (Finset.notMem_empty a), ?_, fun a => ?_, ?_⟩,
    fun a ha => absurd ha (Finset.notMem_empty a)⟩
  · rw [hnumbers]
    rfl
  · rw [hmarks]
    simp
  · rw [htransfers, hrequired, Finset.card_empty, if_neg (by omega), List.count_nil]

omit [DecidableEq Digest] in
/-- The quorum argument.  The authorities that have confirmed a transfer are more
than the faulty ones. -/
theorem Confirms.exists_honest {Good : Address → Payout → Prop} {faulty : Finset Address}
    (h : Confirms env start Good chain) (hfaulty : faulty.card < start.bridge.requiredSignatures)
    {payout : Payout} (hpaid : payout ∈ chain.transfers) :
    ∃ a, start.bridge.authorities a = true ∧ a ∉ faulty ∧ Good a payout := by
  obtain ⟨signers, hcounted, hsigners⟩ := h payout
  have hreached : start.bridge.requiredSignatures ≤ signers.card := by
    have hcount := List.count_pos_iff.2 hpaid
    rw [hcounted.transfers] at hcount
    split at hcount
    · assumption
    · cases hcount
  obtain ⟨a, ha, hhonest⟩ := Finset.exists_mem_notMem_of_card_lt_card (hfaulty.trans_le hreached)
  exact ⟨a, hcounted.authority a ha, hhonest, hsigners a ha⟩

omit [DecidableEq Digest] in
theorem Confirms.nodup {Good : Address → Payout → Prop} (h : Confirms env start Good chain) :
    chain.transfers.Nodup := by
  rw [List.nodup_iff_count_le_one]
  intro payout
  obtain ⟨signers, hcounted, -⟩ := h payout
  rw [hcounted.transfers]
  split <;> omega

end ForeignChain

/-! ## The signers of a payment -/

/-- A check that succeeds has seen as many distinct allowed signers as it was asked
for, and none of those that it had seen before. -/
theorem checkSignatures_eq_true {recover : Nat → Option Address} {allowedSigners : List Address}
    {count i : Nat} {encountered : List Address}
    (h : checkSignatures recover allowedSigners count i encountered = some true) :
    ∃ signers : List Address, signers.length = count ∧ signers.Nodup ∧
      ∀ a ∈ signers, a ∉ encountered.take i ∧ a ∈ allowedSigners ∧ ∃ j, recover j = some a := by
  induction count generalizing i encountered with
  | zero => exact ⟨[], rfl, List.nodup_nil, fun a ha => absurd ha List.not_mem_nil⟩
  | succ count ih =>
    rw [checkSignatures] at h
    obtain ⟨a, ha, h⟩ := Option.bind_eq_some_iff.1 h
    split at h
    · cases h
    · rename_i hallowed
      split at h
      · cases h
      · rename_i hnew
        rw [require_bind_eq_some] at h
        obtain ⟨hlt, h⟩ := h
        obtain ⟨signers, hlength, hnodup, hsigners⟩ := ih h
        have htake : (encountered.set i a).take (i + 1) = encountered.take i ++ [a] := by
          rw [List.take_add_one, List.take_set, List.getElem?_set_self hlt]
          rw [List.set_eq_of_length_le (by simp)]
          rfl
        rw [htake] at hsigners
        have hfresh : a ∉ encountered := by simpa using hnew
        refine ⟨a :: signers, by rw [List.length_cons, hlength], ?_, ?_⟩
        · exact List.nodup_cons.2 ⟨fun hmem => (hsigners a hmem).1 (by simp), hnodup⟩
        · intro b hb
          rcases List.mem_cons.1 hb with rfl | hb
          · exact ⟨fun hmem => hfresh (List.mem_of_mem_take hmem), by simpa using hallowed, i, ha⟩
          · obtain ⟨hseen, hrest⟩ := hsigners b hb
            exact ⟨fun hmem => hseen (List.mem_append_left _ hmem), hrest⟩

/-- A message that `withdraw` accepts is signed by distinct authorities, as many as
are required. -/
theorem signers_of_enough {keccak256 : Bytes → Digest}
    {ecrecover : Digest → UInt8 → H256 → H256 → Address} {message : Bytes}
    (hmessage : message.length < 2 ^ 256) {vs : List UInt8} {rs ss : List H256}
    {allowedSigners : List Address} {requiredSignatures : Nat}
    (h : hasEnoughValidSignatures keccak256 ecrecover message vs rs ss allowedSigners
      requiredSignatures = some true) :
    ∃ signers : List Address, signers.length = requiredSignatures ∧ signers.Nodup ∧
      ∀ a ∈ signers, a ∈ allowedSigners ∧
        ∃ j, Truffle.recoverAt ecrecover (ethDataHash keccak256 message) vs rs ss j = some a := by
  unfold hasEnoughValidSignatures at h
  split at h
  · cases h
  · rw [hashMessage_eq_ethDataHash keccak256 hmessage] at h
    obtain ⟨signers, hlength, hnodup, hsigners⟩ := checkSignatures_eq_true h
    exact ⟨signers, hlength, hnodup, fun a ha => (hsigners a ha).2⟩

end PoaBridge.Contracts
