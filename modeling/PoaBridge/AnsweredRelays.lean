import PoaBridge.RelayProgress
import PoaBridge.WithdrawAssembly
import PoaBridge.WithdrawSubmission

/-!
# Relays that are answered

A poll of each of the three relays when the nodes answer.  `Able` is what has to hold
of the keystore and of the logs of the chain, whatever the state of the relay.
`Answered` is what the nodes answer to the relay in its state: the logs and the results
of calls come at once, the transactions are taken, and the balance covers the batch.

The result is `poll_finishes`, once for each relay.  `rank` bounds the iterations of
such a poll.
-/

namespace PoaBridge

open PollLoop

variable {Digest : Type}

/-! ## Deposits -/

namespace DepositRelay

/-- The keystore has the account, and the deposits of the chain can be relayed. -/
structure Able (app : App Digest) (init : Database) (home : Nat → List Log) : Prop where
  signs : app.wallet.Signs app.foreign.account
  payload : ∀ block, ∀ log ∈ home block,
    (depositsFilter app.abi init.homeContractAddress).matches log = true →
    ∃ payload, depositRelayPayload app.abi log = .ok payload

/-- What the nodes answer to the relay in its state. -/
def Answered (app : App Digest) (best : Nat) (self : DepositRelay Digest × Shared Digest)
    (answers : Answers Digest) : Prop :=
  match self.1.state with
  | .wait => (∀ a ∈ answers.logs, Following.Prompt best a) ∧ 5 ≤ answers.logs.length ∧
    ∃ balance, self.2.foreignBalance = some balance ∧ ∀ item,
      (self.1.logs.poll answers.logs).2 = .ok (.ready (some item)) →
      balanceRequired app.depositRelayGas self.2.foreignGasPrice item.logs.length ≤ balance.toNat
  | .relayDeposits future _ => future.Answered answers.future
  | .yield _ => True

/-- The iterations before a return. -/
def rank (self : DepositRelay Digest × Shared Digest) : Nat :=
  match self.1.state with
  | .yield none => 3
  | .wait => 2
  | .relayDeposits _ _ => 1
  | .yield (some _) => 0

theorem rank_lt (self : DepositRelay Digest × Shared Digest) : rank self < 4 := by
  unfold rank
  split <;> omega

variable {app : App Digest} {init : Database} {home : Nat → List Log} {floor start checkpoint : Nat}
  {old : List Log} {confirmations : UInt64} {best : Nat} {caught : Prop}

theorem exists_transactions {self : DepositRelay Digest} {gasPrice : UInt64} {balance : U256}
    {item : LogStreamItem}
    (hlogs : ∀ log ∈ item.logs, ∃ payload, depositRelayPayload app.abi log = .ok payload)
    (hbalance : balanceRequired app.depositRelayGas gasPrice item.logs.length ≤ balance.toNat) :
    ∃ deposits, self.transactions app gasPrice balance item = .ok deposits := by
  unfold transactions
  rw [if_neg (Nat.not_lt.2 hbalance)]
  refine Results.exists_mapM_eq_ok fun log hmem => ?_
  obtain ⟨payload, hpayload⟩ := hlogs log hmem
  rw [hpayload]
  exact ⟨_, rfl⟩

theorem body_finishes {self : DepositRelay Digest × Shared Digest} {answers : Answers Digest}
    (hable : Able app init home) (hbest : best < 2 ^ 64)
    (hfaithful : ∀ a ∈ answers.logs, Faithful home a)
    (hinv : Inv app init home floor self.1 self.2)
    (htally : (spec app init home).Counted start old logs pending self)
    (htracked : Tracked confirmations checkpoint (logs self.1) (block self.1))
    (hcaught : caught → Caught (Following.head best confirmations) (logs self.1) (block self.1))
    (hanswered : Answered app best self answers) :
    (body app self answers).Sat (fun s =>
      (caught → Caught (Following.head best confirmations) (logs s.1) (block s.1)) ∧
        rank s < rank self) fun s =>
      Finished (Following.head best confirmations) caught (logs s.1) (block s.1) := by
  obtain ⟨⟨logs, state, contract, chainId⟩, shared⟩ := self
  have hconf : logs.confirmations = confirmations := htracked.confirmations_eq
  subst hconf
  cases state with
  | wait =>
    obtain ⟨hprompt, hlength, balance, hbalance, hfunds⟩ := hanswered
    have hfilter : logs.filter = depositsFilter app.abi init.homeContractAddress :=
      hinv.progress.filter_eq
    rw [body]
    dsimp only
    rw [hbalance]
    refine awaitItem_finishes hbest htally.stream hfaithful hprompt hlength hcaught
      (fun _ => ⟨rfl, rfl⟩) ?_
    intro item logs' hitem hlogs hcaught'
    have hpayload : ∀ log ∈ item.logs, ∃ payload,
        depositRelayPayload app.abi log = .ok payload := by
      intro log hlog
      obtain ⟨number, hmem, hmatches⟩ := hlogs log hlog
      rw [hfilter] at hmatches
      exact hable.payload number log hmem hmatches
    obtain ⟨deposits, hdeposits⟩ := @exists_transactions _ app ⟨logs', .wait, contract, chainId⟩
      shared.foreignGasPrice balance item hpayload (hfunds item hitem)
    rw [hdeposits]
    exact ⟨hcaught', Nat.lt_succ_self 1⟩
  | relayDeposits future block =>
    have hfutures := Spec.Futures.account (hinv.futures future block rfl)
      fun log future' hrelays => hrelays.choose_spec.2.account_eq
    rw [body]
    exact awaitBatch_finishes hable.signs hfutures hanswered fun _ => ⟨hcaught, Nat.zero_lt_one⟩
  | yield block =>
    cases block with
    | none => exact ⟨hcaught, Nat.lt_succ_self 2⟩
    | some block => exact @finished_event caught _ _ _ _ (.depositRelay block) htracked hcaught

/-- A poll of an answered relay. -/
theorem poll_finishes {relay : DepositRelay Digest} {shared : Shared Digest}
    {script : List (Answers Digest)} (hable : Able app init home) (hbest : best < 2 ^ 64)
    (hfaithful : ∀ answers ∈ script, ∀ a ∈ answers.logs, Faithful home a)
    (hinv : Inv app init home floor relay shared)
    (htally : (spec app init home).Counted start old logs pending (relay, shared))
    (htracked : Tracked confirmations checkpoint relay.logs relay.block)
    (hanswered : Along (body app) (Answered app best) (relay, shared) script)
    (hlength : 4 ≤ script.length) :
    Finished (Following.head best confirmations)
      (Caught (Following.head best confirmations) relay.logs relay.block)
      (poll app (relay, shared) script).1.1.logs (poll app (relay, shared) script).1.1.block
      (poll app (relay, shared) script).2 := by
  refine @run_finishes _ _ logs block _ (body app)
    (fun s => (spec app init home).Kept app (Inv app init home floor) shared s ∧
      (spec app init home).Counted start old logs pending s ∧
      Tracked confirmations checkpoint (logs s.1) (block s.1))
    (Answered app best) (Following.head best confirmations) rank script (relay, shared) hanswered
    ?_ ?_ ⟨⟨Spec.Step.refl shared, hinv⟩, htally, htracked⟩ ((rank_lt _).trans_le hlength)
  · rintro answers hmem s ⟨hkept, hcounted, htracks⟩
    have hlogs := hfaithful answers hmem
    have hcomplete := fun a ha => (hlogs a ha).complete
    exact ((body_sat hcomplete hkept).and ((body_tallied hlogs hkept.2 hcounted).and
      (body_tracked hcomplete hkept.2 htracks))).imp (fun _ h => h) fun _ _ _ => trivial
  · rintro answers hmem s caught ⟨hkept, hcounted, htracks⟩ hcaught hmeets
    exact body_finishes hable hbest (hfaithful answers hmem) hkept.2 hcounted htracks hcaught hmeets

end DepositRelay

/-! ## Withdrawals to confirm -/

namespace WithdrawConfirm

/-- The keystore has the account, and the withdrawals of the chain can be confirmed. -/
structure Able (app : App Digest) (init : Database) (foreign : Nat → List Log) : Prop where
  signs : app.wallet.Signs app.foreign.account
  withdrawn : ∀ block, ∀ log ∈ foreign block,
    (withdrawsFilter app.abi init.foreignContractAddress).matches log = true →
    (∃ event hash, Withdrawn app.abi log event hash) ∧ Signed app log

@[inherit_doc DepositRelay.Answered]
def Answered (app : App Digest) (best : Nat) (self : WithdrawConfirm Digest × Shared Digest)
    (answers : Answers Digest) : Prop :=
  match self.1.state with
  | .wait => (∀ a ∈ answers.logs, Following.Prompt best a) ∧ 5 ≤ answers.logs.length ∧
    ∃ balance, self.2.foreignBalance = some balance ∧ ∀ item,
      (self.1.logs.poll answers.logs).2 = .ok (.ready (some item)) →
      balanceRequired app.withdrawConfirmGas self.2.foreignGasPrice item.logs.length
        ≤ balance.toNat
  | .confirmWithdraws future _ => future.Answered answers.future
  | .yield _ => True

@[inherit_doc DepositRelay.rank]
def rank (self : WithdrawConfirm Digest × Shared Digest) : Nat :=
  match self.1.state with
  | .yield none => 3
  | .wait => 2
  | .confirmWithdraws _ _ => 1
  | .yield (some _) => 0

theorem rank_lt (self : WithdrawConfirm Digest × Shared Digest) : rank self < 4 := by
  unfold rank
  split <;> omega

variable {app : App Digest} {init : Database} {foreign : Nat → List Log}
  {floor start checkpoint : Nat} {old : List Log} {confirmations : UInt64} {best : Nat}
  {caught : Prop}

theorem exists_transactions {self : WithdrawConfirm Digest} {gasPrice : UInt64} {balance : U256}
    {item : LogStreamItem}
    (hlogs : ∀ log ∈ item.logs,
      (∃ event hash, Withdrawn app.abi log event hash) ∧ Signed app log)
    (hbalance : balanceRequired app.withdrawConfirmGas gasPrice item.logs.length
      ≤ balance.toNat) :
    ∃ result, self.transactions app gasPrice balance item = .ok result := by
  obtain ⟨pairs, hmessages⟩ := messages_of_withdrawn fun log hlog => (hlogs log hlog).1
  obtain ⟨triples, hsignatures, hlength⟩ :=
    signatures_of_signed hmessages fun log hlog => (hlogs log hlog).2
  obtain ⟨result, hresult⟩ := exists_confirmations hmessages hsignatures self gasPrice
  refine ⟨result, ?_⟩
  unfold transactions
  rw [hmessages]
  show (signatures app pairs >>= _) = _
  rw [hsignatures]
  show (if _ then _ else _) = _
  rw [if_neg (by rw [hlength]; exact Nat.not_lt.2 hbalance)]
  exact hresult

theorem body_finishes {self : WithdrawConfirm Digest × Shared Digest} {answers : Answers Digest}
    (hable : Able app init foreign) (hbest : best < 2 ^ 64)
    (hfaithful : ∀ a ∈ answers.logs, Faithful foreign a)
    (hinv : Inv app init foreign floor self.1 self.2)
    (htally : (spec app init foreign).Counted start old logs pending self)
    (htracked : Tracked confirmations checkpoint (logs self.1) (block self.1))
    (hcaught : caught → Caught (Following.head best confirmations) (logs self.1) (block self.1))
    (hanswered : Answered app best self answers) :
    (body app self answers).Sat (fun s =>
      (caught → Caught (Following.head best confirmations) (logs s.1) (block s.1)) ∧
        rank s < rank self) fun s =>
      Finished (Following.head best confirmations) caught (logs s.1) (block s.1) := by
  obtain ⟨⟨logs, state, contract, chainId⟩, shared⟩ := self
  have hconf : logs.confirmations = confirmations := htracked.confirmations_eq
  subst hconf
  cases state with
  | wait =>
    obtain ⟨hprompt, hlength, balance, hbalance, hfunds⟩ := hanswered
    have hfilter : logs.filter = withdrawsFilter app.abi init.foreignContractAddress :=
      hinv.progress.filter_eq
    rw [body]
    dsimp only
    rw [hbalance]
    refine awaitItem_finishes hbest htally.stream hfaithful hprompt hlength hcaught
      (fun _ => ⟨rfl, rfl⟩) ?_
    intro item logs' hitem hlogs hcaught'
    have hwithdrawn : ∀ log ∈ item.logs,
        (∃ event hash, Withdrawn app.abi log event hash) ∧ Signed app log := by
      intro log hlog
      obtain ⟨number, hmem, hmatches⟩ := hlogs log hlog
      rw [hfilter] at hmatches
      exact hable.withdrawn number log hmem hmatches
    obtain ⟨result, hresult⟩ := @exists_transactions _ app ⟨logs', .wait, contract, chainId⟩
      shared.foreignGasPrice balance item hwithdrawn (hfunds item hitem)
    rw [hresult]
    exact ⟨hcaught', Nat.lt_succ_self 1⟩
  | confirmWithdraws future block =>
    have hfutures := Spec.Futures.account (hinv.futures future block rfl)
      fun log future' hrelays => hrelays.choose_spec.choose_spec.2.2.account_eq
    rw [body]
    exact awaitBatch_finishes hable.signs hfutures hanswered fun _ => ⟨hcaught, Nat.zero_lt_one⟩
  | yield block =>
    cases block with
    | none => exact ⟨hcaught, Nat.lt_succ_self 2⟩
    | some block => exact @finished_event caught _ _ _ _ (.withdrawConfirm block) htracked hcaught

/-- A poll of an answered relay. -/
theorem poll_finishes {relay : WithdrawConfirm Digest} {shared : Shared Digest}
    {script : List (Answers Digest)} (hable : Able app init foreign) (hbest : best < 2 ^ 64)
    (hfaithful : ∀ answers ∈ script, ∀ a ∈ answers.logs, Faithful foreign a)
    (hinv : Inv app init foreign floor relay shared)
    (htally : (spec app init foreign).Counted start old logs pending (relay, shared))
    (htracked : Tracked confirmations checkpoint relay.logs relay.block)
    (hanswered : Along (body app) (Answered app best) (relay, shared) script)
    (hlength : 4 ≤ script.length) :
    Finished (Following.head best confirmations)
      (Caught (Following.head best confirmations) relay.logs relay.block)
      (poll app (relay, shared) script).1.1.logs (poll app (relay, shared) script).1.1.block
      (poll app (relay, shared) script).2 := by
  refine @run_finishes _ _ logs block _ (body app)
    (fun s => (spec app init foreign).Kept app (Inv app init foreign floor) shared s ∧
      (spec app init foreign).Counted start old logs pending s ∧
      Tracked confirmations checkpoint (logs s.1) (block s.1))
    (Answered app best) (Following.head best confirmations) rank script (relay, shared) hanswered
    ?_ ?_ ⟨⟨Spec.Step.refl shared, hinv⟩, htally, htracked⟩ ((rank_lt _).trans_le hlength)
  · rintro answers hmem s ⟨hkept, hcounted, htracks⟩
    have hlogs := hfaithful answers hmem
    have hcomplete := fun a ha => (hlogs a ha).complete
    exact ((body_sat hcomplete hkept).and ((body_tallied hlogs hkept.2 hcounted).and
      (body_tracked hcomplete hkept.2 htracks))).imp (fun _ h => h) fun _ _ _ => trivial
  · rintro answers hmem s caught ⟨hkept, hcounted, htracks⟩ hcaught hmeets
    exact body_finishes hable hbest (hfaithful answers hmem) hkept.2 hcounted htracks hcaught hmeets

end WithdrawConfirm

/-! ## Withdrawals to relay -/

namespace WithdrawRelay

/-- The keystore has the account.  The logs of the chain announce messages and
signatures of the right lengths, and the node serves them. -/
structure Able (app : App Digest) (init : Database) (foreign : Nat → List Log)
    (called : Address → Bytes → Bytes → Prop) (stores : Stores) : Prop where
  signs : app.wallet.Signs app.home.account
  encodes : EncodesWord app.abi
  serves : Serves app.abi stores (called init.foreignContractAddress)
  collected : ∀ block, ∀ log ∈ foreign block,
    (collectedSignaturesFilter app.abi [init.foreignContractAddress]).matches log = true →
    Collected app.abi log ∧ (duty app log = false → infoTransactionHash app log = .ok ())
  stored : ∀ block, ∀ log ∈ foreign block, ∀ event, Own app log event →
    (stores.message event.messageHash).length = 116 ∧
      ∀ bytes ∈ stores.announced event, bytes.length = 65

@[inherit_doc DepositRelay.Answered]
def Answered (app : App Digest) (best : Nat) (self : WithdrawRelay Digest × Shared Digest)
    (answers : Answers Digest) : Prop :=
  match self.1.state with
  | .wait => (∀ a ∈ answers.logs, Following.Prompt best a) ∧ 5 ≤ answers.logs.length
  | .fetchMessagesSignatures assignments _ _ =>
    (∀ id contract payload, ∃ raw, answers.call id contract payload = .ok (.ready raw)) ∧
      ∃ balance, self.2.homeBalance = some balance ∧
        balanceRequired app.withdrawRelayGas self.2.homeGasPrice assignments.length
          ≤ balance.toNat
  | .relayWithdraws future _ => future.Answered answers.future
  | .yield _ => True

@[inherit_doc DepositRelay.rank]
def rank (self : WithdrawRelay Digest × Shared Digest) : Nat :=
  match self.1.state with
  | .yield none => 4
  | .wait => 3
  | .fetchMessagesSignatures _ _ _ => 2
  | .relayWithdraws _ _ => 1
  | .yield (some _) => 0

theorem rank_lt (self : WithdrawRelay Digest × Shared Digest) : rank self < 5 := by
  unfold rank
  split <;> omega

/-- The messages that are fetched are for logs of the chain. -/
def Sourced (foreign : Nat → List Log) (filter : Filter) (self : WithdrawRelay Digest) : Prop :=
  ∀ assignments future block, self.state = .fetchMessagesSignatures assignments future block →
    ∀ p ∈ assignments, ∃ number, p.1 ∈ foreign number ∧ filter.matches p.1 = true

variable {app : App Digest} {init : Database} {foreign : Nat → List Log}
  {called : Address → Bytes → Bytes → Prop} {stores : Stores} {floor start checkpoint : Nat}
  {old : List Log} {confirmations : UInt64} {best : Nat} {caught : Prop}

theorem body_sourced {self : WithdrawRelay Digest × Shared Digest} {answers : Answers Digest}
    (hanswers : answers.Faithful foreign called)
    (htally : (spec app init foreign called).Counted start old logs pending self)
    (h : Sourced foreign (spec app init foreign called).filter self.1) :
    (body app self answers).Sat
      (fun s => Sourced foreign (spec app init foreign called).filter s.1)
      fun s _ => Sourced foreign (spec app init foreign called).filter s.1 := by
  obtain ⟨⟨logs, state, foreignContract, homeContract, chainId⟩, shared⟩ := self
  cases state with
  | wait =>
    rw [body]
    refine awaitItem_flow (fun _ _ _ _ _ _ _ heq => (by cases heq)) fun item hitem => ?_
    have hlogs := exists_of_mem_item htally.stream hanswers.logs hitem
    split
    · exact fun _ _ _ heq => by cases heq
    · rename_i assignments hassignments
      intro assignments' future block heq p hp
      cases heq
      have hmem : p.1 ∈ item.logs.filter (duty app) := by
        rw [← (assignments_eq_ok hassignments).1]
        exact List.mem_map.2 ⟨p, hp, rfl⟩
      obtain ⟨number, hnumber, hmatches⟩ := hlogs p.1 (List.mem_filter.1 hmem).1
      refine ⟨number, hnumber, ?_⟩
      rw [← htally.filter_eq]
      exact hmatches
  | fetchMessagesSignatures assignments future block =>
    have hsourced : ∀ future', Sourced foreign (spec app init foreign called).filter
        (⟨logs, .fetchMessagesSignatures assignments future' block, foreignContract, homeContract,
          chainId⟩ : WithdrawRelay Digest) := by
      intro future' assignments' future'' block' heq
      cases heq
      exact h assignments future block rfl
    rw [body]
    unfold awaitFetch
    dsimp only
    split
    · exact hsourced future
    · refine tryReady_sat (fun _ _ => hsourced _) (fun _ => hsourced _) fun raws _ => ?_
      split
      · exact hsourced _
      · exact fun _ _ _ heq => by cases heq
  | relayWithdraws future block =>
    rw [body]
    exact awaitBatch_flow (fun _ _ _ _ _ _ _ _ heq => (by cases heq)) fun _ _ _ _ heq => by
      cases heq
  | yield block =>
    cases block with
    | none => exact fun _ _ _ heq => by cases heq
    | some block => exact fun _ _ _ heq => by cases heq

theorem poll_sourced {relay : WithdrawRelay Digest} {shared : Shared Digest}
    {script : List (Answers Digest)} (hscript : ∀ answers ∈ script, answers.Faithful foreign called)
    (hinv : Inv app init foreign called floor relay shared)
    (htally : (spec app init foreign called).Counted start old logs pending (relay, shared))
    (h : Sourced foreign (spec app init foreign called).filter relay) :
    Sourced foreign (spec app init foreign called).filter
      (poll app (relay, shared) script).1.1 := by
  refine @run_sat _ _ _ (body app) (.ok .notReady)
    (fun s => (spec app init foreign called).Kept app (Inv app init foreign called floor) shared
        s ∧
      (spec app init foreign called).Counted start old logs pending s ∧
      Sourced foreign (spec app init foreign called).filter s.1)
    (fun s _ => Sourced foreign (spec app init foreign called).filter s.1) (fun _ hs => hs.2.2)
    script (relay, shared) ?_ ⟨⟨Spec.Step.refl shared, hinv⟩, htally, h⟩
  rintro answers hmem s ⟨hkept, hcounted, hsource⟩
  have hlogs := hscript answers hmem
  exact ((body_sat hlogs.honest hkept).and ((body_tallied hlogs hkept.2 hcounted).and
    (body_sourced hlogs hcounted hsource))).imp (fun _ h => h) fun _ _ h => h.2.2

/-- What is fetched for logs of the chain makes a batch. -/
theorem exists_batch {self : WithdrawRelay Digest} {gasPrice : UInt64} {balance : U256}
    {assignments : List (Log × RelayAssignment)} {messagesRaw : List Bytes}
    {signaturesRaw : List (List Bytes)} (hable : Able app init foreign called stores)
    (hpayloads : ∀ p ∈ assignments, signaturesPayload app p.1 = .ok (some p.2))
    (hsourced : ∀ p ∈ assignments, ∃ number, p.1 ∈ foreign number ∧
      (collectedSignaturesFilter app.abi [init.foreignContractAddress]).matches p.1 = true)
    (hmessages : List.Forall₂ (MessageAnswer (called init.foreignContractAddress)) assignments
      messagesRaw)
    (hsignatures : List.Forall₂ (SignatureAnswers (called init.foreignContractAddress))
      assignments signaturesRaw)
    (hbalance : balanceRequired app.withdrawRelayGas gasPrice assignments.length
      ≤ balance.toNat) :
    ∃ result, self.transactions app gasPrice balance assignments messagesRaw signaturesRaw
      = .ok result := by
  have hstored : ∀ p ∈ assignments, ∀ event, Own app p.1 event →
      (stores.message event.messageHash).length = 116 ∧
        ∀ bytes ∈ stores.announced event, bytes.length = 65 := by
    intro p hp event hown
    obtain ⟨number, hmem, -⟩ := hsourced p hp
    exact hable.stored number p.1 hmem event hown
  refine exists_transactions hable.serves ⟨fun p hp => ?_, hmessages, hsignatures⟩
    (fun p hp event hown => (hstored p hp event hown).1)
    (fun p hp event hown => (hstored p hp event hown).2) hbalance
  obtain ⟨number, hmem, hmatches⟩ := hsourced p hp
  have hpayload := hpayloads p hp
  have hduty : duty app p.1 = true := (isSome_of_signaturesPayload hpayload).symm
  obtain ⟨event, hown, hnumber⟩ := own_of_duty (hable.collected number p.1 hmem hmatches).1 hduty
  rw [signaturesPayload_of_own hable.encodes hown hnumber] at hpayload
  exact ⟨event, hown, (Option.some.inj (Except.ok.inj hpayload)).symm⟩

/-- The calls are answered, and the balance covers the batch. -/
theorem awaitFetch_finishes {logs : LogStream} {assignments : List (Log × RelayAssignment)}
    {future : Fetch} {block chainId : UInt64} {shared : Shared Digest} {answers : Answers Digest}
    {P : WithdrawRelay Digest × Shared Digest → Prop}
    {Q : WithdrawRelay Digest × Shared Digest → Poll (Option BridgeChecked) → Prop}
    (hable : Able app init foreign called stores) (hfaithful : answers.Faithful foreign called)
    (hpayloads : ∀ p ∈ assignments, signaturesPayload app p.1 = .ok (some p.2))
    (hfetching : Fetching (called init.foreignContractAddress) assignments future)
    (hsourced : ∀ p ∈ assignments, ∃ number, p.1 ∈ foreign number ∧
      (collectedSignaturesFilter app.abi [init.foreignContractAddress]).matches p.1 = true)
    (hanswered : ∀ id contract payload, ∃ raw,
      answers.call id contract payload = .ok (.ready raw))
    {balance : U256} (hbalance : shared.homeBalance = some balance)
    (hfunds : balanceRequired app.withdrawRelayGas shared.homeGasPrice assignments.length
      ≤ balance.toNat)
    (hnext : ∀ batch, P (⟨logs, .relayWithdraws batch block, init.foreignContractAddress,
      init.homeContractAddress, chainId⟩, shared)) :
    (awaitFetch app ⟨logs, .fetchMessagesSignatures assignments future block,
      init.foreignContractAddress, init.homeContractAddress, chainId⟩ shared answers assignments
      future block).Sat P Q := by
  have hpolled := pollFetch_spec
    (fun id payload raw hraw => hfaithful.call id init.foreignContractAddress payload raw hraw)
    hfetching
  have hready : ∃ raws, (pollFetch (answers.call · init.foreignContractAddress) future).2
      = .ok (.ready raws) := by
    refine Join.poll_returns (fun calls => ?_) (fun calls => ?_) future
    · exact JoinAll.poll_returns (fun i payload => hanswered (.message i) _ payload) calls
    · refine JoinAll.poll_returns (fun i calls => ?_) calls
      exact JoinAll.poll_returns (fun j payload => hanswered (.signature i j) _ payload) calls
  obtain ⟨raws, hraws⟩ := hready
  obtain ⟨hmessages, hsignatures⟩ := hpolled.2 raws hraws
  unfold awaitFetch
  dsimp only
  rw [hbalance]
  dsimp only
  rw [hraws]
  obtain ⟨result, hresult⟩ := @exists_batch _ _ _ _ _ _
    ⟨logs, .fetchMessagesSignatures assignments
      (pollFetch (answers.call · init.foreignContractAddress) future).1 block,
      init.foreignContractAddress, init.homeContractAddress, chainId⟩
    shared.homeGasPrice balance _ raws.1 raws.2 hable hpayloads hsourced hmessages hsignatures
    hfunds
  dsimp only [withContext, tryReady]
  rw [hresult]
  exact hnext _

theorem body_finishes {self : WithdrawRelay Digest × Shared Digest} {answers : Answers Digest}
    (hable : Able app init foreign called stores) (hbest : best < 2 ^ 64)
    (hfaithful : answers.Faithful foreign called)
    (hinv : Inv app init foreign called floor self.1 self.2)
    (htally : (spec app init foreign called).Counted start old logs pending self)
    (hsourced : Sourced foreign (spec app init foreign called).filter self.1)
    (htracked : Tracked confirmations checkpoint (logs self.1) (block self.1))
    (hcaught : caught → Caught (Following.head best confirmations) (logs self.1) (block self.1))
    (hanswered : Answered app best self answers) :
    (body app self answers).Sat (fun s =>
      (caught → Caught (Following.head best confirmations) (logs s.1) (block s.1)) ∧
        rank s < rank self) fun s =>
      Finished (Following.head best confirmations) caught (logs s.1) (block s.1) := by
  obtain ⟨⟨logs, state, foreignContract, homeContract, chainId⟩, shared⟩ := self
  have hconf : logs.confirmations = confirmations := htracked.confirmations_eq
  subst hconf
  obtain rfl : homeContract = init.homeContractAddress := hinv.homeContract
  obtain rfl : foreignContract = init.foreignContractAddress := hinv.foreignContract
  cases state with
  | wait =>
    obtain ⟨hprompt, hlength⟩ := hanswered
    have hfilter : logs.filter
        = collectedSignaturesFilter app.abi [init.foreignContractAddress] :=
      hinv.progress.filter_eq
    rw [body]
    refine awaitItem_finishes hbest htally.stream hfaithful.logs hprompt hlength hcaught
      (fun _ => ⟨rfl, rfl⟩) ?_
    intro item logs' _ hlogs hcaught'
    have hcollected : ∀ log ∈ item.logs, Collected app.abi log ∧
        (duty app log = false → infoTransactionHash app log = .ok ()) := by
      intro log hlog
      obtain ⟨number, hmem, hmatches⟩ := hlogs log hlog
      rw [hfilter] at hmatches
      exact hable.collected number log hmem hmatches
    obtain ⟨result, hresult, -, -⟩ := assignments_of_collected hable.encodes
      (fun log hlog => (hcollected log hlog).1) fun log hlog => (hcollected log hlog).2
    rw [hresult]
    exact ⟨hcaught', Nat.lt_succ_self 2⟩
  | fetchMessagesSignatures assignments future block =>
    obtain ⟨hcalls, balance, hbalance, hfunds⟩ := hanswered
    obtain ⟨hpayloads, hfetching⟩ := hinv.fetching assignments future block rfl
    rw [body]
    exact awaitFetch_finishes hable hfaithful hpayloads hfetching
      (hsourced assignments future block rfl) hcalls hbalance hfunds
      fun _ => ⟨hcaught, Nat.lt_succ_self 1⟩
  | relayWithdraws future block =>
    have hfutures := Spec.Futures.account (hinv.futures future block rfl)
      fun log future' hrelays =>
        hrelays.choose_spec.choose_spec.choose_spec.2.2.account_eq
    rw [body]
    exact awaitBatch_finishes hable.signs hfutures hanswered fun _ => ⟨hcaught, Nat.zero_lt_one⟩
  | yield block =>
    cases block with
    | none => exact ⟨hcaught, Nat.lt_succ_self 3⟩
    | some block => exact @finished_event caught _ _ _ _ (.withdrawRelay block) htracked hcaught

/-- A poll of an answered relay. -/
theorem poll_finishes {relay : WithdrawRelay Digest} {shared : Shared Digest}
    {script : List (Answers Digest)} (hable : Able app init foreign called stores)
    (hbest : best < 2 ^ 64) (hfaithful : ∀ answers ∈ script, answers.Faithful foreign called)
    (hinv : Inv app init foreign called floor relay shared)
    (htally : (spec app init foreign called).Counted start old logs pending (relay, shared))
    (hsourced : Sourced foreign (spec app init foreign called).filter relay)
    (htracked : Tracked confirmations checkpoint relay.logs relay.block)
    (hanswered : Along (body app) (Answered app best) (relay, shared) script)
    (hlength : 5 ≤ script.length) :
    Finished (Following.head best confirmations)
      (Caught (Following.head best confirmations) relay.logs relay.block)
      (poll app (relay, shared) script).1.1.logs (poll app (relay, shared) script).1.1.block
      (poll app (relay, shared) script).2 := by
  refine @run_finishes _ _ logs block _ (body app)
    (fun s => (spec app init foreign called).Kept app (Inv app init foreign called floor) shared
        s ∧
      (spec app init foreign called).Counted start old logs pending s ∧
      Sourced foreign (spec app init foreign called).filter s.1 ∧
      Tracked confirmations checkpoint (logs s.1) (block s.1))
    (Answered app best) (Following.head best confirmations) rank script (relay, shared) hanswered
    ?_ ?_ ⟨⟨Spec.Step.refl shared, hinv⟩, htally, hsourced, htracked⟩
    ((rank_lt _).trans_le hlength)
  · rintro answers hmem s ⟨hkept, hcounted, hsource, htracks⟩
    have hlogs := hfaithful answers hmem
    exact ((body_sat hlogs.honest hkept).and ((body_tallied hlogs hkept.2 hcounted).and
      ((body_sourced hlogs hcounted hsource).and
        (body_tracked hlogs.honest hkept.2 htracks)))).imp (fun _ h => h) fun _ _ _ => trivial
  · rintro answers hmem s caught ⟨hkept, hcounted, hsource, htracks⟩ hcaught hmeets
    exact body_finishes hable hbest (hfaithful answers hmem) hkept.2 hcounted hsource htracks
      hcaught hmeets

end WithdrawRelay

end PoaBridge
