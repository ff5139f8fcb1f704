import PoaBridge.Contracts.TwoChains
import PoaBridge.Lib.Exchange

/-!
# What backs the bridge

The two chains as an exchange of two vaults: the ether of `HomeBridge` and the tokens
of `ForeignBridge`.  `vaults` reads the exchange off the two chains.  The claims on a
vault are the events that the other contract has emitted, with the hash of their
transaction, and what a vault has released are the payments and the transfers.

`vaults_step` is the simulation: every step of the two chains is a run of the
exchange.  A transaction that reverts, a block, a poll and a signature leave the
vaults alone.  The rest of the module reads the results about exchanges in terms of
the contracts; `reserves_back_claims` is the result.
-/

namespace PoaBridge.Contracts

open BigEndian
open Truffle (Payout)

variable {Digest : Type}

/-! ## The claims -/

/-- The claim of an event, with the hash of its transaction. -/
def entryClaim (hash : H256) (entry : Address × ℕ) : Exchange.Claim H256 Address :=
  ⟨hash, entry.1, entry.2⟩

def payoutClaim (payout : Payout) : Exchange.Claim H256 Address :=
  ⟨payout.transactionHash, payout.recipient, payout.value.toNat⟩

def paymentClaim (payment : MessageToMainnet) : Exchange.Claim H256 Address :=
  ⟨payment.sidenetTransactionHash, payment.recipient, payment.value.toNat⟩

theorem payoutClaim_injective : Function.Injective payoutClaim := by
  intro payout payout' h
  obtain ⟨hhash, hrecipient, hvalue⟩ := Exchange.Claim.mk.inj h
  cases payout
  cases payout'
  exact Payout.mk.injEq .. ▸ ⟨hrecipient, BitVec.eq_of_toNat_eq hvalue, hhash⟩

/-- Who gets how much. -/
def claimEntry (claim : Exchange.Claim H256 Address) : Address × ℕ := (claim.target, claim.amount)

theorem amounts_map_claimEntry (claims : List (Exchange.Claim H256 Address)) :
    Ledger.amounts (claims.map claimEntry) = Exchange.amounts claims := by
  unfold Ledger.amounts Exchange.amounts
  rw [List.map_map]
  rfl

theorem amounts_map_entryClaim (hash : H256) (entries : List (Address × ℕ)) :
    Exchange.amounts (entries.map (entryClaim hash)) = Ledger.amounts entries := by
  unfold Ledger.amounts Exchange.amounts
  rw [List.map_map]
  rfl

theorem amounts_map_paymentClaim (payments : List MessageToMainnet) :
    Exchange.amounts (payments.map paymentClaim) = values payments := by
  unfold Exchange.amounts values
  rw [List.map_map]
  rfl

theorem amounts_map_payoutClaim (payouts : List Payout) :
    Exchange.amounts (payouts.map payoutClaim) = Ledger.amounts (payouts.map payoutEntry) := by
  unfold Exchange.amounts Ledger.amounts
  rw [List.map_map, List.map_map]
  rfl

namespace Setup

variable (setup : Setup Digest)

/-- The claim of a log of the home chain. -/
def depositClaim? (log : Log) : Option (Exchange.Claim H256 Address) :=
  if setup.depositFilter.matches log then (relayedPayout setup.abi log).map payoutClaim else none

/-- The claim of a log of the foreign chain. -/
def withdrawClaim? (log : Log) : Option (Exchange.Claim H256 Address) :=
  if setup.withdrawFilter.matches log then
    (MessageToMainnet.fromLog setup.abi log).toOption.map paymentClaim
  else none

/-- A `Deposit` event is a claim. -/
theorem depositClaim?_log (hash : H256) (event : HomeEvent) :
    (event.log? setup.abi setup.homeBridge hash).bind setup.depositClaim?
      = event.deposit?.map (entryClaim hash) := by
  cases event with
  | withdraw recipient value => rfl
  | deposit recipient value =>
    show setup.depositClaim? _ = some _
    have hpayout : relayedPayout setup.abi ⟨setup.homeBridge, [setup.abi.depositTopic],
        [Abi.addressWord recipient, value].flatMap wordBytes, some hash⟩
          = some ⟨recipient, value, hash⟩ :=
      (relayedPayout_eq_some setup.roundTrips).2
        ⟨setup.roundTrips.parseDeposit recipient value, rfl⟩
    have hmatches : setup.depositFilter.matches ⟨setup.homeBridge, [setup.abi.depositTopic],
        [Abi.addressWord recipient, value].flatMap wordBytes, some hash⟩ = true :=
      web3Filter_matches ..
    unfold depositClaim?
    rw [if_pos hmatches, hpayout]
    rfl

/-- A `Withdraw` event is a claim. -/
theorem withdrawClaim?_log (hash : H256) (event : TokenEvent) :
    (event.log? setup.abi setup.bridge hash).bind setup.withdrawClaim?
      = event.withdrawal?.map (entryClaim hash) := by
  cases event with
  | tokenAddress token => rfl
  | deposit recipient value => rfl
  | withdraw recipient value homeGasPrice =>
    show setup.withdrawClaim? _ = some _
    have hmessage : MessageToMainnet.fromLog setup.abi ⟨setup.bridge, [setup.abi.withdrawTopic],
        [Abi.addressWord recipient, value, homeGasPrice].flatMap wordBytes, some hash⟩
          = .ok ⟨recipient, value, hash, homeGasPrice⟩ := by
      unfold MessageToMainnet.fromLog Log.rawLog
      rw [setup.roundTrips.parseWithdraw]
    have hmatches : setup.withdrawFilter.matches ⟨setup.bridge, [setup.abi.withdrawTopic],
        [Abi.addressWord recipient, value, homeGasPrice].flatMap wordBytes, some hash⟩ = true :=
      web3Filter_matches ..
    unfold withdrawClaim?
    rw [if_pos hmatches, hmessage]
    rfl

/-- The claims of the logs of a transaction of the home chain. -/
theorem depositClaims_logs (hash : H256) (events : List HomeEvent) :
    (events.filterMap (HomeEvent.log? setup.abi setup.homeBridge hash)).filterMap
        setup.depositClaim?
      = (events.filterMap HomeEvent.deposit?).map (entryClaim hash) := by
  rw [List.filterMap_filterMap, List.map_filterMap]
  exact List.filterMap_congr fun event _ => setup.depositClaim?_log hash event

/-- The claims of the logs of a transaction of the foreign chain. -/
theorem withdrawClaims_logs (hash : H256) (events : List TokenEvent) :
    (events.filterMap (TokenEvent.log? setup.abi setup.bridge hash)).filterMap setup.withdrawClaim?
      = (events.filterMap TokenEvent.withdrawal?).map (entryClaim hash) := by
  rw [List.filterMap_filterMap, List.map_filterMap]
  exact List.filterMap_congr fun event _ => setup.withdrawClaim?_log hash event

/-- The other logs of a block make no claims. -/
theorem depositClaims_others {others : List Log}
    (h : ∀ log ∈ others, setup.depositFilter.matches log = false) :
    others.filterMap setup.depositClaim? = [] := by
  rw [List.filterMap_eq_nil_iff]
  intro log hmem
  exact if_neg (by rw [h log hmem]; exact Bool.false_ne_true)

theorem withdrawClaims_others {others : List Log}
    (h : ∀ log ∈ others, setup.withdrawFilter.matches log = false) :
    others.filterMap setup.withdrawClaim? = [] := by
  rw [List.filterMap_eq_nil_iff]
  intro log hmem
  exact if_neg (by rw [h log hmem]; exact Bool.false_ne_true)

end Setup

/-! ## Events and transfers are never taken back -/

namespace Custody

variable [DecidableEq Digest]

/-- The logs and the transfers of the later state begin with those of the earlier
one. -/
def Extends (chain chain' : Chain Digest) : Prop :=
  chain.bridge.tokenLogs <+: chain'.bridge.tokenLogs ∧ chain.transfers <+: chain'.transfers

theorem extends_exec {env : CustodyEnv Digest} {chain chain' : Chain Digest}
    {call : ForeignChain.Call} (h : chain.exec env.foreign call = some chain') :
    Extends chain chain' := by
  cases call with
  | setTokenAddress sender token =>
    obtain ⟨bridge, hbridge, h⟩ := Option.bind_eq_some_iff.1 h
    rw [← Option.some.inj h]
    unfold ForeignContract.setTokenAddress at hbridge
    simp only [require_bind_eq_some] at hbridge
    obtain ⟨-, -, hbridge⟩ := hbridge
    split at hbridge
    all_goals rw [← Option.some.inj hbridge]
    · exact ⟨List.prefix_append _ _, List.prefix_refl _⟩
    · exact ⟨List.prefix_refl _, List.prefix_refl _⟩
  | deposit sender payout =>
    have hdone := ForeignChain.deposit_cases h
    refine ⟨?_, ?_⟩
    · rw [hdone.logs]
      exact List.prefix_append _ _
    · rw [hdone.transfers]
      exact List.prefix_append _ _
  | receiveApproval sender source value =>
    have hdone := ForeignChain.receiveApproval_cases h
    refine ⟨?_, ?_⟩
    · rw [hdone.bridge]
      exact List.prefix_append _ _
    · rw [hdone.transfers]
  | submitSignature submission =>
    obtain ⟨collection, -, h⟩ := Option.bind_eq_some_iff.1 h
    rw [← Option.some.inj h]
    exact ⟨List.prefix_refl _, List.prefix_refl _⟩

theorem extends_call {env : CustodyEnv Digest} {chain chain' : Chain Digest}
    {call : Call env.toDeployment} {P : ForeignChain.Call → Prop} (hforall : call.Forall P)
    (happroval : ∀ {sender source value}, P (.receiveApproval sender source value))
    (h : exec env chain call = some chain') : Extends chain chain' := by
  have hkept : KeptByCalls env P (Extends chain) := by
    refine ⟨fun tokens hinv => hinv, ?_, happroval⟩
    intro middle middle' call hinv _ hcall
    have hstep := extends_exec hcall
    exact ⟨hinv.1.trans hstep.1, hinv.2.trans hstep.2⟩
  exact exec_induction hkept ⟨List.prefix_refl _, List.prefix_refl _⟩ call hforall h

end Custody

namespace TwoChains

/-! ## The exchange -/

/-- The exchange of the two chains: the ether on the left, and the tokens on the
right. -/
def vaults (setup : Setup Digest) (s : TwoChains Digest) : Exchange.State H256 Address
  | .left => {
      held := s.home.ether setup.homeBridge
      locked := s.homeJournal.logs.filterMap setup.depositClaim?
      released := s.home.paid.map paymentClaim }
  | .right => {
      held := s.foreign.tokens.ledger setup.bridge
      locked := s.foreignJournal.logs.filterMap setup.withdrawClaim?
      released := s.foreign.transfers.map payoutClaim }

section Simulation

variable {setup : Setup Digest} {start s : TwoChains Digest}

/-- A confirmed deposit is a claim on the tokens. -/
theorem DepositConfirmed.claim {payout : Payout} (h : DepositConfirmed setup s payout) :
    payoutClaim payout ∈ (vaults setup s .left).locked := by
  obtain ⟨log, hconfirmed, hpayout⟩ := h
  refine List.mem_filterMap.2 ⟨log, Journal.mem_logs_of_confirmed hconfirmed, ?_⟩
  unfold Setup.depositClaim?
  rw [if_pos hconfirmed.matched, hpayout]
  rfl

/-- A confirmed withdrawal is a claim on the ether. -/
theorem WithdrawConfirmed.claim {payment : MessageToMainnet}
    (h : WithdrawConfirmed setup s payment) :
    paymentClaim payment ∈ (vaults setup s .right).locked := by
  obtain ⟨log, hconfirmed, hmessage⟩ := h
  refine List.mem_filterMap.2 ⟨log, Journal.mem_logs_of_confirmed hconfirmed, ?_⟩
  unfold Setup.withdrawClaim?
  rw [if_pos hconfirmed.matched, hmessage]
  rfl

/-- What the two vaults have released are distinct claims on them. -/
theorem Inv.backed (h : Inv setup start s) (hdeployed : Deployed setup start)
    (hfaulty : setup.faulty.card < setup.requiredSignatures) :
    Exchange.Backed (vaults setup s) where
  claimed := by
    intro side claim hclaim
    cases side with
    | left =>
      obtain ⟨payment, hpaid, rfl⟩ := List.mem_map.1 hclaim
      exact (h.withdrawConfirmed hpaid).claim
    | right =>
      obtain ⟨payout, hpaid, rfl⟩ := List.mem_map.1 hclaim
      exact (h.depositConfirmed hdeployed hfaulty hpaid).claim
  once := by
    intro side
    cases side with
    | left =>
      have hkeys : (hashes s.home.paid)
          = (s.home.paid.map paymentClaim).map Exchange.Claim.key := by
        rw [List.map_map]
        rfl
      exact List.Nodup.of_map _ (hkeys ▸ h.books.distinct)
    | right => exact h.confirms.nodup.map payoutClaim_injective

/-- A vault with what a transaction of its side has added. -/
theorem vaults_home {home : HomeHistory} {hash : H256} {events : List HomeEvent}
    {payments : List MessageToMainnet} (hpaid : home.paid = s.home.paid ++ payments) :
    vaults setup { s with
      home := home
      homeJournal := s.homeJournal.append
        (events.filterMap (HomeEvent.log? setup.abi setup.homeBridge hash)) }
      = Function.update (vaults setup s) .left {
          held := home.ether setup.homeBridge
          locked := (vaults setup s .left).locked
            ++ (events.filterMap HomeEvent.deposit?).map (entryClaim hash)
          released := (vaults setup s .left).released ++ payments.map paymentClaim } := by
  funext side
  cases side with
  | left =>
    simp only [vaults, Function.update_self, Journal.logs_append, List.filterMap_append,
      setup.depositClaims_logs, hpaid, List.map_append]
  | right => rfl

theorem vaults_foreign {foreign : Custody.Chain Digest} {hash : H256} {events : List TokenEvent}
    {transfers : List Payout} (htransfers : foreign.transfers = s.foreign.transfers ++ transfers) :
    vaults setup { s with
      foreign := foreign
      foreignJournal := s.foreignJournal.append
        (events.filterMap (TokenEvent.log? setup.abi setup.bridge hash)) }
      = Function.update (vaults setup s) .right {
          held := foreign.tokens.ledger setup.bridge
          locked := (vaults setup s .right).locked
            ++ (events.filterMap TokenEvent.withdrawal?).map (entryClaim hash)
          released := (vaults setup s .right).released ++ transfers.map payoutClaim } := by
  funext side
  cases side with
  | left => rfl
  | right =>
    simp only [vaults, Function.update_self, Journal.logs_append, List.filterMap_append,
      setup.withdrawClaims_logs, htransfers, List.map_append]

/-- The other logs of a block leave the vaults alone. -/
theorem vaults_mineHome {others : List Log}
    (h : ∀ log ∈ others, setup.depositFilter.matches log = false) :
    vaults setup { s with homeJournal := s.homeJournal.mine others } = vaults setup s := by
  funext side
  cases side with
  | left =>
    simp only [vaults, Journal.logs_mine, List.filterMap_append, setup.depositClaims_others h,
      List.append_nil]
  | right => rfl

theorem vaults_mineForeign {others : List Log}
    (h : ∀ log ∈ others, setup.withdrawFilter.matches log = false) :
    vaults setup { s with foreignJournal := s.foreignJournal.mine others } = vaults setup s := by
  funext side
  cases side with
  | left => rfl
  | right =>
    simp only [vaults, Journal.logs_mine, List.filterMap_append, setup.withdrawClaims_others h,
      List.append_nil]

theorem vaults_executeHome (h : Inv setup start s) {hash : H256} {call : HomeCall}
    (hpossible : HomeHistory.Possible setup.homeEnv s.home call)
    (hbacked : Exchange.Backed (vaults setup (executeHome setup s hash call))) :
    ∃ actions, Exchange.run (vaults setup s) actions
      = some (vaults setup (executeHome setup s hash call)) := by
  unfold executeHome at hbacked ⊢
  cases hcall : s.home.exec setup.homeEnv call with
  | none => exact ⟨[], rfl⟩
  | some home =>
    obtain ⟨events, hdone⟩ := HomeHistory.exec_done h.books.total hpossible hcall
    rw [hcall] at hbacked
    dsimp only at hbacked ⊢
    have hdrop : home.bridge.logs.drop s.home.bridge.logs.length = events := by
      rw [hdone.logs, List.drop_left]
    rw [hdrop, vaults_home hdone.paid] at hbacked ⊢
    refine Exchange.run_of_backed hbacked ?_
    have hbalance := hdone.balance
    have hgiven := hdone.given
    rw [amounts_map_entryClaim, amounts_map_paymentClaim]
    show s.home.ether setup.homeEnv.bridge + _ ≤ home.ether setup.homeEnv.bridge + _
    omega

variable [DecidableEq Digest]

theorem vaults_executeForeign (h : Inv setup start s) {hash : H256}
    {call : Custody.Call setup.toDeployment}
    (hrelayed : call.Forall (setup.Relayed s.depositStreams))
    (hannounced : (executeForeign setup s hash call).foreign.Announced)
    (hbacked : Exchange.Backed (vaults setup (executeForeign setup s hash call))) :
    ∃ actions, Exchange.run (vaults setup s) actions
      = some (vaults setup (executeForeign setup s hash call)) := by
  unfold executeForeign at hannounced hbacked ⊢
  cases hcall : Custody.exec setup.toCustodyEnv s.foreign call with
  | none => exact ⟨[], rfl⟩
  | some foreign =>
    rw [hcall] at hannounced hbacked
    dsimp only at hannounced hbacked ⊢
    obtain ⟨-, actions, hfollows⟩ := Custody.exec_safe h.sound call hcall
    obtain ⟨⟨events, hevents⟩, transfers, htransfers⟩ :=
      Custody.extends_call hrelayed trivial hcall
    have hdrop : foreign.bridge.tokenLogs.drop s.foreign.bridge.tokenLogs.length = events := by
      rw [← hevents, List.drop_left]
    -- the locks are the new events, and the releases are the new transfers
    have hlocks : events.filterMap TokenEvent.withdrawal? = Ledger.locks actions :=
      List.append_cancel_left
        ((ForeignContract.withdrawals_append hevents.symm).symm.trans hfollows.withdrawals)
    have hreleases : transfers.map payoutEntry = Ledger.releases actions := by
      have hdeposits := hfollows.deposits
      rw [hannounced, h.announced, ← htransfers, List.map_append] at hdeposits
      exact List.append_cancel_left hdeposits
    rw [hdrop, vaults_foreign htransfers.symm] at hbacked ⊢
    refine Exchange.run_of_backed hbacked ?_
    rw [amounts_map_entryClaim, amounts_map_payoutClaim, hlocks, hreleases]
    exact Ledger.run_backed hfollows.ledger

/-- Every step of the two chains is a run of the exchange. -/
theorem vaults_step (hkeccak : Function.Injective setup.keccak256)
    (hbytes : Function.Injective setup.digestBytes)
    (hfaulty : setup.faulty.card < setup.requiredSignatures) (hdeployed : Deployed setup start)
    (h : Inv setup start s) {action : Action setup.toDeployment}
    (hallowed : Allowed setup s action) :
    ∃ actions,
      Exchange.run (vaults setup s) actions = some (vaults setup (step setup s action)) := by
  have hnext := inv_step hkeccak hbytes hfaulty hdeployed h hallowed
  have hbacked := hnext.backed hdeployed hfaulty
  cases action with
  | home hash call => exact vaults_executeHome h hallowed.1 hbacked
  | foreign hash call => exact vaults_executeForeign h hallowed hnext.announced hbacked
  | mineHome others => exact ⟨[], congrArg some (vaults_mineHome hallowed).symm⟩
  | mineForeign others => exact ⟨[], congrArg some (vaults_mineForeign hallowed).symm⟩
  | sign a log =>
    refine ⟨[], congrArg some ?_⟩
    rw [step]
    split <;> exact funext fun side => by cases side <;> rfl
  | pollDeposits | pollWithdraws | restartDeposits | restartWithdraws =>
    exact ⟨[], congrArg some (funext fun side => by cases side <;> rfl)⟩

/-- Every run of the two chains is a run of the exchange. -/
theorem vaults_run (hkeccak : Function.Injective setup.keccak256)
    (hbytes : Function.Injective setup.digestBytes)
    (hfaulty : setup.faulty.card < setup.requiredSignatures) (hdeployed : Deployed setup start)
    {actions : List (Action setup.toDeployment)} (h : Inv setup start s)
    (hallowed : Runs.Along (step setup) (Allowed setup) s actions) :
    Inv setup start (run setup s actions) ∧ ∃ exchanged,
      Exchange.run (vaults setup s) exchanged = some (vaults setup (run setup s actions)) := by
  induction actions generalizing s with
  | nil => exact ⟨h, [], rfl⟩
  | cons action actions ih =>
    obtain ⟨first, hfirst⟩ := vaults_step hkeccak hbytes hfaulty hdeployed h hallowed.1
    obtain ⟨hinv, rest, hrest⟩ :=
      ih (inv_step hkeccak hbytes hfaulty hdeployed h hallowed.1) hallowed.2
    exact ⟨hinv, first ++ rest, Exchange.run_append hfirst hrest⟩

/-! ## The exchange in terms of the contracts -/

omit [DecidableEq Digest] in
theorem claimEntry_entryClaim (hash : H256) (entries : List (Address × ℕ)) :
    (entries.map (entryClaim hash)).map claimEntry = entries := by
  rw [List.map_map]
  exact List.map_id entries

/-- The claims of the logs are the events of the two contracts. -/
structure Recorded (setup : Setup Digest) (s : TwoChains Digest) : Prop where
  deposits : (vaults setup s .left).locked.map claimEntry = s.home.bridge.deposits
  withdrawals : (vaults setup s .right).locked.map claimEntry = s.foreign.bridge.withdrawals

theorem recorded_step {start : TwoChains Digest} (h : Inv setup start s)
    (hrecorded : Recorded setup s) {action : Action setup.toDeployment}
    (hallowed : Allowed setup s action) : Recorded setup (step setup s action) := by
  cases action with
  | home hash call =>
    rw [step, executeHome]
    cases hcall : s.home.exec setup.homeEnv call with
    | none => exact hrecorded
    | some home =>
      obtain ⟨events, hdone⟩ := HomeHistory.exec_done h.books.total hallowed.1 hcall
      refine ⟨?_, hrecorded.withdrawals⟩
      dsimp only
      rw [hdone.logs, List.drop_left, vaults_home hdone.paid, Function.update_self]
      dsimp only
      rw [List.map_append, hrecorded.deposits, claimEntry_entryClaim,
        HomeBridge.deposits_append hdone.logs]
  | foreign hash call =>
    rw [step, executeForeign]
    cases hcall : Custody.exec setup.toCustodyEnv s.foreign call with
    | none => exact hrecorded
    | some foreign =>
      obtain ⟨⟨events, hevents⟩, transfers, htransfers⟩ :=
        Custody.extends_call hallowed trivial hcall
      refine ⟨hrecorded.deposits, ?_⟩
      dsimp only
      rw [← hevents, List.drop_left, vaults_foreign htransfers.symm, Function.update_self]
      dsimp only
      rw [List.map_append, hrecorded.withdrawals, claimEntry_entryClaim,
        ForeignContract.withdrawals_append hevents.symm]
  | mineHome others =>
    refine ⟨?_, hrecorded.withdrawals⟩
    rw [step, vaults_mineHome hallowed]
    exact hrecorded.deposits
  | mineForeign others =>
    refine ⟨hrecorded.deposits, ?_⟩
    rw [step, vaults_mineForeign hallowed]
    exact hrecorded.withdrawals
  | sign a log =>
    rw [step]
    split
    · exact hrecorded
    · exact ⟨hrecorded.deposits, hrecorded.withdrawals⟩
  | pollDeposits | pollWithdraws | restartDeposits | restartWithdraws =>
    exact ⟨hrecorded.deposits, hrecorded.withdrawals⟩

theorem recorded_run (hkeccak : Function.Injective setup.keccak256)
    (hbytes : Function.Injective setup.digestBytes)
    (hfaulty : setup.faulty.card < setup.requiredSignatures) (hdeployed : Deployed setup start)
    {actions : List (Action setup.toDeployment)} (h : Inv setup start s)
    (hrecorded : Recorded setup s)
    (hallowed : Runs.Along (step setup) (Allowed setup) s actions) :
    Recorded setup (run setup s actions) := by
  have hstep : ∀ s action, Inv setup start s ∧ Recorded setup s → Allowed setup s action →
      Inv setup start (step setup s action) ∧ Recorded setup (step setup s action) :=
    fun s action hs hallowed => ⟨inv_step hkeccak hbytes hfaulty hdeployed hs.1 hallowed,
      recorded_step hs.1 hs.2 hallowed⟩
  exact (Runs.foldl_of_along hstep actions s hallowed ⟨h, hrecorded⟩).2

end Simulation

/-- What `withdraw` has paid, before the relay cost. -/
def payments (s : TwoChains Digest) : List (Address × ℕ) :=
  s.home.paid.map fun payment => (payment.recipient, payment.value.toNat)

/-- The amounts for one account. -/
def amountsFor (a : Address) (entries : List (Address × ℕ)) : ℕ :=
  Ledger.amounts (entries.filter fun entry => entry.1 = a)

/-- What the two contracts hold together. -/
def reserves (setup : Setup Digest) (s : TwoChains Digest) : ℕ :=
  s.home.ether setup.homeBridge + s.foreign.tokens.ledger setup.bridge

/-- What has been deposited and not transferred, and what has been withdrawn and not
paid. -/
def owed (s : TwoChains Digest) : ℕ :=
  (Ledger.amounts s.home.bridge.deposits - Ledger.amounts s.foreign.bridge.deposits)
    + (Ledger.amounts s.foreign.bridge.withdrawals - Ledger.amounts s.payments)

section Readings

variable {setup : Setup Digest} {start s : TwoChains Digest}

theorem payments_eq : (vaults setup s .left).released.map claimEntry = s.payments :=
  List.map_map ..

theorem transfers_eq (h : s.foreign.Announced) :
    (vaults setup s .right).released.map claimEntry = s.foreign.bridge.deposits := by
  rw [h]
  exact List.map_map ..

/-- The amounts for one account, from the claims. -/
theorem amountsFor_claims (a : Address) (claims : List (Exchange.Claim H256 Address)) :
    amountsFor a (claims.map claimEntry)
      = Exchange.amounts (claims.filter fun claim => claim.target = a) := by
  unfold amountsFor
  rw [List.filter_map, amounts_map_claimEntry]
  rfl

theorem owed_eq (h : s.foreign.Announced) (hrecorded : Recorded setup s) :
    owed s = Exchange.outstanding (vaults setup s) .left
      + Exchange.outstanding (vaults setup s) .right := by
  unfold owed Exchange.outstanding
  rw [← hrecorded.deposits, ← hrecorded.withdrawals, ← @payments_eq _ setup,
    ← @transfers_eq _ setup _ h]
  simp only [amounts_map_claimEntry]
  exact Nat.add_comm _ _

theorem deploy_recorded {estimatedGasCostOfWithdraw : U256} {ether : Address → ℕ}
    {owner : Address} {depositsAfter withdrawsAfter : Address → UInt64}
    (hdeploy : deploy setup estimatedGasCostOfWithdraw ether owner depositsAfter withdrawsAfter
      = some start) : Recorded setup start := by
  obtain ⟨home, hhome, hdeploy⟩ := Option.bind_eq_some_iff.1 hdeploy
  obtain ⟨foreign, hforeign, hdeploy⟩ := Option.bind_eq_some_iff.1 hdeploy
  obtain ⟨homeBridge, hhomeBridge, hhome⟩ := Option.bind_eq_some_iff.1 hhome
  unfold HomeBridge.deploy at hhomeBridge
  simp only [require_bind_eq_some] at hhomeBridge
  obtain ⟨bridge, hbridge, hforeign⟩ := Option.bind_eq_some_iff.1 hforeign
  obtain ⟨collection, -, hbridge⟩ := Option.bind_eq_some_iff.1 hbridge
  rw [← Option.some.inj hdeploy, ← Option.some.inj hhome, ← Option.some.inj hhomeBridge.2.2,
    ← Option.some.inj hforeign, ← Option.some.inj hbridge]
  exact ⟨rfl, rfl⟩

end Readings

/-- The reserves back the claims, for every deployment and every run of the two chains
with fewer faulty authorities than the threshold.

For every account, no more tokens are transferred than ether was deposited, and no
more ether is paid than tokens were withdrawn.  Between any two moments of the run,
what the two contracts hold together falls by no more than what they owe: what has
been deposited and not transferred, and withdrawn and not paid. -/
theorem reserves_back_claims [DecidableEq Digest] (setup : Setup Digest)
    (hkeccak : Function.Injective setup.keccak256)
    (hbytes : Function.Injective setup.digestBytes)
    (hfaulty : setup.faulty.card < setup.requiredSignatures)
    (estimatedGasCostOfWithdraw : U256) (ether : Address → ℕ) (owner : Address)
    (depositsAfter withdrawsAfter : Address → UInt64) (start : TwoChains Digest)
    (hdeploy : deploy setup estimatedGasCostOfWithdraw ether owner depositsAfter withdrawsAfter
      = some start) (htotal : Ledger.total ether < 2 ^ 255)
    (before after : List (Action setup.toDeployment))
    (hallowed : Runs.Along (step setup) (Allowed setup) start (before ++ after)) :
    let s := run setup start before
    let s' := run setup start (before ++ after)
    (∀ a, amountsFor a s'.foreign.bridge.deposits ≤ amountsFor a s'.home.bridge.deposits) ∧
      (∀ a, amountsFor a s'.payments ≤ amountsFor a s'.foreign.bridge.withdrawals) ∧
      reserves setup s + owed s' ≤ reserves setup s' + owed s := by
  obtain ⟨hdeployed, hstart⟩ := deploy_spec hdeploy htotal
  obtain ⟨hbefore, hafter⟩ := Runs.along_append.1 hallowed
  have hmiddle := (vaults_run hkeccak hbytes hfaulty hdeployed hstart hbefore).1
  obtain ⟨hend, exchanged, hexchanged⟩ :=
    vaults_run hkeccak hbytes hfaulty hdeployed hmiddle hafter
  have hrun : run setup (run setup start before) after = run setup start (before ++ after) :=
    List.foldl_append.symm
  have hrecorded := deploy_recorded hdeploy
  have hrecordedBefore := recorded_run hkeccak hbytes hfaulty hdeployed hstart hrecorded hbefore
  have hrecordedAfter := recorded_run hkeccak hbytes hfaulty hdeployed hstart hrecorded hallowed
  rw [hrun] at hend hexchanged
  generalize run setup start before = s at hmiddle hexchanged hrecordedBefore
  generalize run setup start (before ++ after) = s' at hend hexchanged hrecordedAfter
  have hbacked := hend.backed hdeployed hfaulty
  refine ⟨fun a => ?_, fun a => ?_, ?_⟩
  · rw [← @transfers_eq _ setup _ hend.announced, ← hrecordedAfter.deposits,
      amountsFor_claims, amountsFor_claims]
    exact hbacked.amounts_le .right _
  · rw [← @payments_eq _ setup, ← hrecordedAfter.withdrawals, amountsFor_claims,
      amountsFor_claims]
    exact hbacked.amounts_le .left _
  · have hsurplus := Exchange.run_surplus (hmiddle.backed hdeployed hfaulty) hexchanged
    rw [← owed_eq hmiddle.announced hrecordedBefore, ← owed_eq hend.announced hrecordedAfter]
      at hsurplus
    have hreserves : ∀ s : TwoChains Digest, reserves setup s
        = (vaults setup s .left).held + (vaults setup s .right).held := fun _ => rfl
    rw [hreserves, hreserves]
    omega

/-- From the moment when the tokens are there, through a deposit and a withdrawal. -/
theorem reserves_back_claims_bothWays :
    let s := run threeAuthorities bothDeployed tokenReady
    let s' := run threeAuthorities bothDeployed bothWays
    reserves threeAuthorities s + owed s' ≤ reserves threeAuthorities s' + owed s ∧
      owed s' = 0 := by
  have hpeg := reserves_back_claims threeAuthorities Function.injective_id Function.injective_id
    (by decide) 2 userEther 0xa1 (fun _ => 0) (fun _ => 0) bothDeployed rfl total_userEther
    tokenReady (depositRelayed ++ (withdrawSigned ++ [Action.home 10 (.withdraw withdrawForUser)]))
    allowed_bothWays
  rw [← bothWays] at hpeg
  exact ⟨hpeg.2.2, by decide +kernel⟩

end TwoChains

end PoaBridge.Contracts
