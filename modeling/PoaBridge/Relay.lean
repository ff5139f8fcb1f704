import PoaBridge.Config
import PoaBridge.Database
import PoaBridge.Lib.Futures
import PoaBridge.LogStream
import PoaBridge.Message
import PoaBridge.Nonce

/-!
# What the three relays have in common

A relay reads the logs of one chain and sends one transaction for each of them
to a chain.  The relays of a process share the nonce counters, the balances and
the gas prices (`Shared`).

A `Job` is a log together with the future that was made for it.  When a future
ends with `Ok`, a `Receipt` is added to the record of the process.  The code does
not have this record: it is what the statements are about.

`Spec` is what a relay is for: the logs it has to relay, and what it means that a
transaction relays a log.  `Spec.Progress` is the invariant of the three relays.
It says that every log up to the position of the stream is relayed, or one of the
jobs in progress is for it.
-/

namespace PoaBridge

open PollLoop

variable {Digest : Type}

/-! ## The process -/

/-- `App`: the configuration, the interfaces and the keystore. -/
structure App (Digest : Type) where
  abi : Abi
  wallet : Wallet Digest
  keccak256 : Bytes → Digest
  home : NodeConfig
  foreign : NodeConfig
  /-- `config.txs.deposit_relay.gas`. -/
  depositRelayGas : UInt64
  /-- `config.txs.withdraw_confirm.gas`. -/
  withdrawConfirmGas : UInt64
  /-- `config.txs.withdraw_relay.gas`. -/
  withdrawRelayGas : UInt64
  /-- Whether the log level lets `info!` evaluate its arguments. -/
  infoEnabled : Bool

/-- `log.transaction_hash.unwrap()` as an argument of `info!`. -/
def infoTransactionHash (app : App Digest) (log : Log) : Except Error Unit :=
  if app.infoEnabled && log.transactionHash.isNone then
    .error (.panic "called `Option::unwrap()` on a `None` value")
  else .ok ()

inductive Side where
  | home
  | foreign
deriving DecidableEq, Repr

/-- A log, and the future that was made for it. -/
structure Job where
  log : Log
  future : NonceCheck

/-- A future ended with `Ok`: its job, the answers of the node in the last poll,
and the hash it returned. -/
structure Receipt (Digest : Type) where
  relay : Relay
  job : Job
  answers : List (NonceCheck.Answers Digest)
  hash : Digest

/-- What the components of a process share, and the record of the futures that
ended with `Ok`. -/
structure Shared (Digest : Type) where
  homeNonce : U256
  foreignNonce : U256
  homeBalance : Option U256
  foreignBalance : Option U256
  homeGasPrice : UInt64
  foreignGasPrice : UInt64
  receipts : List (Receipt Digest)

namespace Shared

/-- `node.info.nonce`. -/
def nonce (self : Shared Digest) : Side → U256
  | .home => self.homeNonce
  | .foreign => self.foreignNonce

def setNonce (self : Shared Digest) (side : Side) (nonce : U256) : Shared Digest :=
  match side with
  | .home => { self with homeNonce := nonce }
  | .foreign => { self with foreignNonce := nonce }

/-- The jobs of a relay that are done. -/
def done (self : Shared Digest) (relay : Relay) : List Job :=
  (self.receipts.filter (·.relay = relay)).map Receipt.job

end Shared

/-! ## Batches of transactions -/

/-- `Collect<FuturesUnordered<NonceCheck>>`. -/
abbrev Batch (Digest : Type) := Collect Job NonceCheck Digest

/-- The answers in one poll of a batch: the futures that are polled, in order. -/
abbrev Batch.Script (Digest : Type) := List (Nat × List (NonceCheck.Answers Digest))

/-- One future of a batch is polled. -/
def pollJob (wallet : Wallet Digest) (relay : Relay) (side : Side) (job : Job)
    (future : NonceCheck) (shared : Shared Digest) (script : List (NonceCheck.Answers Digest)) :
    (NonceCheck × Shared Digest) × Poll Digest :=
  let ((future, nonce), result) := NonceCheck.poll wallet (future, shared.nonce side) script
  let shared := shared.setNonce side nonce
  match result with
  | .ok (.ready hash) =>
    ((future, { shared with receipts := shared.receipts ++ [⟨relay, job, script, hash⟩] }), result)
  | _ => ((future, shared), result)

def Batch.poll (app : App Digest) (relay : Relay) (side : Side)
    (self : Batch Digest × Shared Digest) (script : Batch.Script Digest) :
    (Batch Digest × Shared Digest) × Poll (List Digest) :=
  Collect.poll (pollJob app.wallet relay side) self script

/-- The batch with one transaction for each log. -/
def sendAll (account : Address) (chainId : UInt64) (transactions : List (Log × Transaction)) :
    Batch Digest :=
  futuresUnordered (transactions.map fun (log, tx) =>
    let future := sendTransactionWithNonce account chainId tx
    (⟨log, future⟩, future))

/-- What holds of the log and the transaction of every pair, holds of the logs and
the futures of the batch, in order. -/
theorem forall₂_pending_sendAll {account : Address} {chainId : UInt64}
    {transactions : List (Log × Transaction)} {R : Log → Job × NonceCheck → Prop}
    (h : ∀ p ∈ transactions,
      let future := sendTransactionWithNonce account chainId p.2
      R p.1 (⟨p.1, future⟩, future)) :
    List.Forall₂ R (transactions.map Prod.fst)
      (sendAll account chainId transactions : Batch Digest).pending := by
  apply List.forall₂_map_left_iff.2
  apply List.forall₂_map_right_iff.2
  apply List.forall₂_same.2
  exact h

/-- The transaction that calls a contract. -/
def callTransaction (gas gasPrice : U256) (contract : Address) (payload : Bytes) : Transaction where
  nonce := 0
  gasPrice := gasPrice
  gas := gas
  action := .call contract
  value := 0
  data := payload

/-- The future sends a call of the contract from the account. -/
structure Calls (account contract : Address) (payload : Bytes) (future : NonceCheck) : Prop where
  account_eq : future.account = account
  action_eq : future.transaction.action = .call contract
  value_eq : future.transaction.value = 0
  data_eq : future.transaction.data = payload

theorem calls_callTransaction (account contract : Address) (payload : Bytes) (chainId : UInt64)
    (gas gasPrice : U256) :
    Calls account contract payload (sendTransactionWithNonce account chainId
      (callTransaction gas gasPrice contract payload)) :=
  ⟨rfl, rfl, rfl, rfl⟩

/-! ## The common parts of the loops -/

/-- `try_stream!(self.logs.poll().map_err(..))` in the state `Wait` of a relay. -/
def awaitItem {ρ : Type} (context : String) (logs : LogStream) (script : List LogStream.Answers)
    (shared : Shared Digest) (setLogs : LogStream → ρ)
    (next : LogStreamItem → ρ → Flow (ρ × Shared Digest) (Poll (Option BridgeChecked))) :
    Flow (ρ × Shared Digest) (Poll (Option BridgeChecked)) :=
  let (logs, item) := logs.poll script
  tryStream (setLogs logs, shared) (withContext context item) fun item => next item (setLogs logs)

/-- `try_ready!(future.poll().map_err(..))` in the state of a relay that waits for
a batch. -/
def awaitBatch {ρ : Type} (app : App Digest) (relay : Relay) (side : Side) (context : String)
    (future : Batch Digest) (script : Batch.Script Digest) (shared : Shared Digest)
    (setFuture : Batch Digest → ρ) (next : ρ) :
    Flow (ρ × Shared Digest) (Poll (Option BridgeChecked)) :=
  let ((future, shared), result) := Batch.poll app relay side (future, shared) script
  tryReady (setFuture future, shared) (withContext context result) fun _ => .next (next, shared)

/-- `gas * gas_price * U256::from(len)`.  The product of three 64-bit numbers fits
into a `U256`. -/
def balanceRequired (gas gasPrice : UInt64) (len : Nat) : Nat :=
  gas.toNat * gasPrice.toNat * len

/-! ## What a relay is for -/

/-- The logs of the blocks from `fromBlock` to `toBlock` that match the filter. -/
def matchingLogs (blocks : Nat → List Log) (filter : Filter) (fromBlock toBlock : Nat) : List Log :=
  (List.range' fromBlock (toBlock + 1 - fromBlock)).flatMap fun b =>
    (blocks b).filter filter.matches

/-- `eth_getLogs` returns all the matching logs of the blocks it is asked for. -/
def Complete (blocks : Nat → List Log) (answers : LogStream.Answers) : Prop :=
  ∀ filter fromBlock toBlock logs, answers.logs filter fromBlock toBlock = .ok (.ready logs) →
    (matchingLogs blocks filter fromBlock.toNat toBlock.toNat).Subperm logs

/-- What a relay is for: the chain and the filter of its logs, the logs that it
has to relay, and the futures that relay a log. -/
structure Spec where
  relay : Relay
  blocks : Nat → List Log
  filter : Filter
  duty : Log → Bool
  relays : Log → NonceCheck → Prop

namespace Spec

/-- The logs that the relay has to relay, in the blocks after `init` up to
`block`. -/
def duties (spec : Spec) (init block : Nat) : List Log :=
  (matchingLogs spec.blocks spec.filter (init + 1) block).filter spec.duty

/-- The receipt is for a transaction that relays the log, and the node took
it. -/
structure Valid (spec : Spec) (app : App Digest) (receipt : Receipt Digest) : Prop where
  relays : spec.relays receipt.job.log receipt.job.future
  accepted : ∃ answers ∈ receipt.answers,
    NonceCheck.Accepted app.wallet receipt.job.future answers.send receipt.hash

/-- What a poll of the relay does to the shared data: the record of this relay
grows by valid receipts. -/
structure Step (spec : Spec) (app : App Digest) (before after : Shared Digest) : Prop where
  receipts : ∃ new, after.receipts = before.receipts ++ new ∧
    ∀ receipt ∈ new, receipt.relay = spec.relay ∧ spec.Valid app receipt
  homeBalance : after.homeBalance = before.homeBalance
  foreignBalance : after.foreignBalance = before.foreignBalance
  homeGasPrice : after.homeGasPrice = before.homeGasPrice
  foreignGasPrice : after.foreignGasPrice = before.foreignGasPrice

/-- The futures of a batch are for their logs. -/
def Futures (spec : Spec) (app : App Digest) (batch : Batch Digest) : Prop :=
  ∀ p ∈ batch.pending,
    spec.relays p.1.log p.1.future ∧ NonceCheck.Sends app.wallet p.1.future p.2

/-! ### The record -/

variable {spec : Spec} {app : App Digest}

theorem Step.refl (shared : Shared Digest) : spec.Step app shared shared :=
  ⟨⟨[], by simp, by simp⟩, rfl, rfl, rfl, rfl⟩

theorem Step.trans {a b c : Shared Digest} (hab : spec.Step app a b) (hbc : spec.Step app b c) :
    spec.Step app a c := by
  obtain ⟨new, hnew, hvalid⟩ := hab.receipts
  obtain ⟨new', hnew', hvalid'⟩ := hbc.receipts
  refine ⟨⟨new ++ new', by rw [hnew', hnew, List.append_assoc], ?_⟩,
    hbc.homeBalance.trans hab.homeBalance, hbc.foreignBalance.trans hab.foreignBalance,
    hbc.homeGasPrice.trans hab.homeGasPrice, hbc.foreignGasPrice.trans hab.foreignGasPrice⟩
  intro receipt hmem
  rcases List.mem_append.1 hmem with hmem | hmem
  · exact hvalid receipt hmem
  · exact hvalid' receipt hmem

/-- The polls of one relay do not touch the record of another. -/
theorem Step.done_of_ne {a b : Shared Digest} (h : spec.Step app a b) {relay : Relay}
    (hne : relay ≠ spec.relay) : b.done relay = a.done relay := by
  obtain ⟨new, hnew, hvalid⟩ := h.receipts
  have hother : new.filter (·.relay = relay) = [] := by
    apply List.filter_eq_nil_iff.2
    intro receipt hmem heq
    have hrelay : receipt.relay = relay := by simpa using heq
    exact hne (hrelay.symm.trans (hvalid receipt hmem).1)
  rw [Shared.done, Shared.done, hnew, List.filter_append, hother, List.append_nil]

/-! ### Batches -/

theorem futures_sendAll {account : Address} {chainId : UInt64}
    {transactions : List (Log × Transaction)}
    (h : ∀ p ∈ transactions,
      spec.relays p.1 (sendTransactionWithNonce account chainId p.2)) :
    spec.Futures app (sendAll account chainId transactions) := by
  intro p hp
  obtain ⟨q, hq, rfl⟩ := List.mem_map.1 hp
  exact ⟨h q hq, NonceCheck.sends_start _ _ _ _⟩

theorem jobs_sendAll (account : Address) (chainId : UInt64)
    (transactions : List (Log × Transaction)) :
    (sendAll account chainId transactions : Batch Digest).jobs.map Job.log
      = transactions.map Prod.fst := by
  simp [sendAll]

/-- A poll of a future keeps it for its log, and it adds a receipt exactly if the
future ends with `Ok`. -/
theorem pollJob_step (side : Side) {start shared : Shared Digest} {job : Job}
    {future : NonceCheck} (script : List (NonceCheck.Answers Digest))
    (hshared : spec.Step app start shared)
    (hfuture : spec.relays job.log job.future ∧
      NonceCheck.Sends app.wallet job.future future) :
    Collect.Step (spec.Step app start)
      (fun job future => spec.relays job.log job.future ∧
        NonceCheck.Sends app.wallet job.future future)
      (Shared.done · spec.relay) job shared
      (pollJob app.wallet spec.relay side job future shared script) := by
  have hpoll := @NonceCheck.poll_spec _ app.wallet job.future (future, shared.nonce side)
    script hfuture.2
  unfold pollJob
  generalize NonceCheck.poll app.wallet (future, shared.nonce side) script = result at hpoll
  obtain ⟨⟨future', nonce⟩, result⟩ := result
  have hnonce : spec.Step app shared (shared.setNonce side nonce) := by
    cases side <;> exact ⟨⟨[], by simp [Shared.setNonce], by simp⟩, rfl, rfl, rfl, rfl⟩
  have hdone : (shared.setNonce side nonce).done spec.relay = shared.done spec.relay := by
    cases side <;> rfl
  rcases result with e | _ | hash
  · exact ⟨hshared.trans hnonce, ⟨hfuture.1, hpoll.1⟩, by simpa using hdone⟩
  · exact ⟨hshared.trans hnonce, ⟨hfuture.1, hpoll.1⟩, by simpa using hdone⟩
  · refine ⟨hshared.trans (hnonce.trans ?_), ⟨hfuture.1, hpoll.1⟩, ?_⟩
    · refine ⟨⟨_, rfl, ?_⟩, rfl, rfl, rfl, rfl⟩
      intro receipt hmem
      rw [List.mem_singleton.1 hmem]
      exact ⟨rfl, hfuture.1, hpoll.2 hash rfl⟩
    · dsimp only
      rw [← hdone]
      simp [Shared.done]

/-- The specification of a poll of a batch. -/
theorem poll_batch {batch : Batch Digest} (shared : Shared Digest) (side : Side)
    (script : Batch.Script Digest) (h : spec.Futures app batch) :
    let result := Batch.poll app spec.relay side (batch, shared) script
    spec.Step app shared result.1.2 ∧ ((∀ e, result.2 ≠ .error e) →
      spec.Futures app result.1.1 ∧
      (result.1.1.jobs ++ result.1.2.done spec.relay).Perm
        (batch.jobs ++ shared.done spec.relay) ∧
      ∀ hashes, result.2 = .ok (.ready hashes) → result.1.1.pending = []) :=
  Collect.poll_spec (fun _ _ _ _ _ hw hR => pollJob_step side _ hw hR) (Step.refl shared) h

/-! ### The logs of a relay -/

theorem matchingLogs_append (blocks : Nat → List Log) (filter : Filter) {a b c : Nat}
    (hab : a ≤ b + 1) (hbc : b ≤ c) :
    matchingLogs blocks filter a c
      = matchingLogs blocks filter a b ++ matchingLogs blocks filter (b + 1) c := by
  have hrange : List.range' a (c + 1 - a)
      = List.range' a (b + 1 - a) ++ List.range' (b + 1) (c + 1 - (b + 1)) := by
    have happend := @List.range'_append_1 a (b + 1 - a) (c + 1 - (b + 1))
    rw [show a + (b + 1 - a) = b + 1 by omega] at happend
    rw [happend, show b + 1 - a + (c + 1 - (b + 1)) = c + 1 - a by omega]
  rw [matchingLogs, hrange, List.flatMap_append]
  rfl

theorem duties_append (spec : Spec) {init mid block : Nat} (hinit : init ≤ mid)
    (hmid : mid ≤ block) :
    spec.duties init block = spec.duties init mid ++ spec.duties mid block := by
  rw [duties, matchingLogs_append spec.blocks spec.filter (by omega) hmid, List.filter_append]
  rfl

theorem duties_self (spec : Spec) (block : Nat) : spec.duties block block = [] := by
  simp [duties, matchingLogs]

/-! ### Progress -/

/-- The invariant of a relay.  It started after the block `init`, and the block
`floor` is the last one that it has reported.  `pending` are the logs of the jobs
in progress, and `block` is the block that it reports next. -/
structure Progress (spec : Spec) (init floor : Nat) (logs : LogStream) (pending : List Log)
    (block : Option UInt64) (shared : Shared Digest) : Prop where
  stream : logs.Inv (Complete spec.blocks)
  filter_eq : logs.filter = spec.filter
  init_le : init ≤ floor
  floor_le : floor ≤ logs.position
  covered : (spec.duties init logs.position).Subperm
    (pending ++ (shared.done spec.relay).map Job.log)
  block_eq : ∀ b, block = some b → b.toNat = logs.position

namespace Progress

variable {init floor : Nat} {logs : LogStream} {pending : List Log} {block : Option UInt64}
  {shared : Shared Digest}

/-- The stream is polled, and there is no new item. -/
theorem poll_nothing (h : spec.Progress init floor logs pending block shared)
    {script : List LogStream.Answers} (hscript : ∀ answers ∈ script, Complete spec.blocks answers)
    (hnothing : ∀ item, (logs.poll script).2 ≠ .ok (.ready (some item))) :
    spec.Progress init floor (logs.poll script).1 pending block shared := by
  obtain ⟨hinv, hfilter, -, hresult⟩ := LogStream.poll_spec hscript h.stream
  have hposition : (logs.poll script).1.position = logs.position := by
    split at hresult
    · rename_i item heq
      exact absurd heq (hnothing item)
    · exact hresult
  refine ⟨hinv, hfilter.trans h.filter_eq, h.init_le, ?_, ?_, ?_⟩
  · rw [hposition]
    exact h.floor_le
  · rw [hposition]
    exact h.covered
  · rw [hposition]
    exact h.block_eq

/-- The stream is polled by a relay without jobs, and there is an item: its logs
are the next jobs. -/
theorem poll_item (h : spec.Progress init floor logs [] none shared)
    {script : List LogStream.Answers} (hscript : ∀ answers ∈ script, Complete spec.blocks answers)
    {item : LogStreamItem} (hitem : (logs.poll script).2 = .ok (.ready (some item))) :
    spec.Progress init floor (logs.poll script).1 (item.logs.filter spec.duty)
      (some item.toBlock) shared := by
  obtain ⟨hinv, hfilter, -, hresult⟩ := LogStream.poll_spec hscript h.stream
  rw [hitem] at hresult
  obtain ⟨hdelivered, hfrom, hposition, -, -⟩ := hresult
  have hrange := UInt64.le_iff_toNat_le.1 hdelivered.range
  have hfloor := h.floor_le
  have hinit := h.init_le
  refine ⟨hinv, hfilter.trans h.filter_eq, hinit, ?_, ?_, ?_⟩
  · rw [hposition]
    omega
  · obtain ⟨answers, hcomplete, hanswer⟩ := hdelivered.answered
    have hlogs := hcomplete _ _ _ _ hanswer
    rw [hfrom, h.filter_eq] at hlogs
    have hnew : (spec.duties logs.position item.toBlock.toNat).Subperm
        (item.logs.filter spec.duty) := hlogs.filter spec.duty
    have hold : (spec.duties init logs.position).Subperm
        ((shared.done spec.relay).map Job.log) := h.covered
    have hinit' : init ≤ logs.position := by omega
    rw [hposition, spec.duties_append hinit' (by omega)]
    exact (hold.append hnew).trans List.perm_append_comm.subperm
  · intro b hb
    rw [hposition, ← Option.some.inj hb]

/-- The jobs in progress change, and the jobs that are done, but not the logs that
one of them is for. -/
theorem setJobs (h : spec.Progress init floor logs pending block shared)
    {pending' : List Log} {shared' : Shared Digest}
    (hperm : (pending' ++ (shared'.done spec.relay).map Job.log).Perm
      (pending ++ (shared.done spec.relay).map Job.log)) :
    spec.Progress init floor logs pending' block shared' :=
  ⟨h.stream, h.filter_eq, h.init_le, h.floor_le, h.covered.trans hperm.symm.subperm, h.block_eq⟩

/-- A poll of another relay. -/
theorem frame (h : spec.Progress init floor logs pending block shared)
    {shared' : Shared Digest} (hdone : shared'.done spec.relay = shared.done spec.relay) :
    spec.Progress init floor logs pending block shared' := by
  apply h.setJobs
  rw [hdone]

/-- The block that the relay has to report is reported. -/
theorem clearBlock (h : spec.Progress init floor logs pending block shared) :
    spec.Progress init floor logs pending none shared :=
  ⟨h.stream, h.filter_eq, h.init_le, h.floor_le, h.covered, fun _ hb => by cases hb⟩

theorem setFloor (h : spec.Progress init floor logs pending block shared) {floor' : Nat}
    (hinit : init ≤ floor') (hle : floor' ≤ logs.position) :
    spec.Progress init floor' logs pending block shared :=
  ⟨h.stream, h.filter_eq, hinit, hle, h.covered, h.block_eq⟩

end Progress

/-- What a relay reports: every log up to the block is relayed. -/
structure Reported (spec : Spec) (init floor : Nat) (logs : LogStream) (shared : Shared Digest)
    (event : BridgeChecked) : Prop where
  relay_eq : event.relay = spec.relay
  floor_le : floor ≤ event.block.toNat
  le_position : event.block.toNat ≤ logs.position
  covered : (spec.duties init event.block.toNat).Subperm
    ((shared.done spec.relay).map Job.log)

/-- What a poll of a relay establishes.  `Inv` is the invariant of the relay, and
`start` is the shared data before the poll.  A relay that fails is not polled
again. -/
def Post {ρ : Type} (spec : Spec) (app : App Digest) (init floor : Nat)
    (Inv : ρ → Shared Digest → Prop) (logs : ρ → LogStream) (start : Shared Digest)
    (self : ρ × Shared Digest) (result : Poll (Option BridgeChecked)) : Prop :=
  spec.Step app start self.2 ∧ ((∀ e, result ≠ .error e) →
    Inv self.1 self.2 ∧
    ∀ event, result = .ok (.ready (some event)) →
      spec.Reported init floor (logs self.1) self.2 event)

section Post

variable {ρ : Type} {init floor : Nat} {Inv : ρ → Shared Digest → Prop} {logs : ρ → LogStream}
  {start : Shared Digest} {self : ρ × Shared Digest}

theorem post_error (hstep : spec.Step app start self.2) (e : Error) :
    spec.Post app init floor Inv logs start self (.error e) :=
  ⟨hstep, fun h => absurd rfl (h e)⟩

/-- A poll that reports nothing. -/
theorem post_nothing (hstep : spec.Step app start self.2) (hinv : Inv self.1 self.2)
    {result : Poll (Option BridgeChecked)} (hresult : ∀ event, result ≠ .ok (.ready (some event))) :
    spec.Post app init floor Inv logs start self result :=
  ⟨hstep, fun _ => ⟨hinv, fun event h => absurd h (hresult event)⟩⟩

/-- A poll that reports the block at which the stream stands. -/
theorem post_event (hstep : spec.Step app start self.2) (hinv : Inv self.1 self.2)
    {event : BridgeChecked} (hrelay : event.relay = spec.relay)
    (hprogress : spec.Progress init floor (logs self.1) [] (some event.block) self.2) :
    spec.Post app init floor Inv logs start self (.ok (.ready (some event))) := by
  have hblock := hprogress.block_eq event.block rfl
  refine ⟨hstep, fun _ => ⟨hinv, ?_⟩⟩
  intro event' h
  cases h
  refine ⟨hrelay, ?_, le_of_eq hblock, ?_⟩
  · rw [hblock]
    exact hprogress.floor_le
  · rw [hblock]
    exact hprogress.covered

end Post

/-! ### The common parts of the loops -/

section Loops

variable {ρ : Type} {init floor : Nat} {Inv : ρ → Shared Digest → Prop} {logs : LogStream}
  {logsOf : ρ → LogStream} {start shared : Shared Digest}

/-- What holds before every iteration of a poll. -/
def Kept (spec : Spec) (app : App Digest) (Inv : ρ → Shared Digest → Prop)
    (start : Shared Digest) (self : ρ × Shared Digest) : Prop :=
  spec.Step app start self.2 ∧ Inv self.1 self.2

theorem awaitItem_sat {context : String} {script : List LogStream.Answers} {setLogs : LogStream → ρ}
    {next : LogStreamItem → ρ → Flow (ρ × Shared Digest) (Poll (Option BridgeChecked))}
    (hscript : ∀ answers ∈ script, Complete spec.blocks answers)
    (hstep : spec.Step app start shared) (h : spec.Progress init floor logs [] none shared)
    (hnothing : ∀ logs, spec.Progress init floor logs [] none shared → Inv (setLogs logs) shared)
    (hitem : ∀ item logs, spec.Progress init floor logs (item.logs.filter spec.duty)
      (some item.toBlock) shared →
      (next item (setLogs logs)).Sat (spec.Kept app Inv start)
        (spec.Post app init floor Inv logsOf start)) :
    (awaitItem context logs script shared setLogs next).Sat (spec.Kept app Inv start)
      (spec.Post app init floor Inv logsOf start) := by
  unfold awaitItem
  dsimp only
  refine tryStream_sat ?_ ?_ ?_ ?_
  · exact fun e _ => post_error hstep e
  · intro hp
    rw [withContext_eq_ok] at hp
    exact post_nothing hstep (hnothing _ (h.poll_nothing hscript (by simp [hp]))) (by simp)
  · intro hp
    rw [withContext_eq_ok] at hp
    exact post_nothing hstep (hnothing _ (h.poll_nothing hscript (by simp [hp]))) (by simp)
  · intro item hp
    rw [withContext_eq_ok] at hp
    exact hitem item _ (h.poll_item hscript hp)

theorem awaitBatch_sat {side : Side} {context : String} {future : Batch Digest}
    {script : Batch.Script Digest} {setFuture : Batch Digest → ρ} {next : ρ} {block : UInt64}
    (hstep : spec.Step app start shared) (hfuture : spec.Futures app future)
    (h : spec.Progress init floor logs (future.jobs.map Job.log) (some block) shared)
    (hwaiting : ∀ future shared, spec.Futures app future →
      spec.Progress init floor logs (future.jobs.map Job.log) (some block) shared →
      Inv (setFuture future) shared)
    (hdone : ∀ shared, spec.Progress init floor logs [] (some block) shared → Inv next shared) :
    (awaitBatch app spec.relay side context future script shared setFuture next).Sat
      (spec.Kept app Inv start) (spec.Post app init floor Inv logsOf start) := by
  have hbatch := poll_batch shared side script hfuture
  unfold awaitBatch
  dsimp only at hbatch ⊢
  generalize Batch.poll app spec.relay side (future, shared) script = result at hbatch ⊢
  obtain ⟨⟨future', shared'⟩, result⟩ := result
  obtain ⟨hstep', hbatch⟩ := hbatch
  dsimp only at hstep' hbatch ⊢
  have hprogress : (∀ e, result ≠ .error e) →
      spec.Progress init floor logs (future'.jobs.map Job.log) (some block) shared' := by
    intro hok
    apply h.setJobs
    have hlogs := (hbatch hok).2.1.map Job.log
    rw [List.map_append, List.map_append] at hlogs
    exact hlogs
  refine tryReady_sat ?_ ?_ ?_
  · exact fun e _ => post_error (hstep.trans hstep') e
  · intro hp
    rw [withContext_eq_ok] at hp
    have hok : ∀ e, result ≠ .error e := by simp [hp]
    exact post_nothing (hstep.trans hstep') (hwaiting _ _ (hbatch hok).1 (hprogress hok)) (by simp)
  · intro hashes hp
    rw [withContext_eq_ok] at hp
    have hok : ∀ e, result ≠ .error e := by simp [hp]
    have hdone' := hprogress hok
    rw [Collect.jobs, (hbatch hok).2.2 hashes hp] at hdone'
    exact ⟨hstep.trans hstep', hdone _ hdone'⟩

end Loops

/-- A relay that starts after the block `floor`, when all the logs up to there
are relayed. -/
theorem progress_start {init : Nat} {after confirmations : UInt64} {filter : Filter}
    {shared : Shared Digest} (hfilter : filter = spec.filter) (hinit : init ≤ after.toNat)
    (hcovered : (spec.duties init after.toNat).Subperm ((shared.done spec.relay).map Job.log)) :
    spec.Progress init after.toNat (logStream ⟨after, filter, confirmations⟩) [] none shared :=
  ⟨LogStream.inv_logStream _ _, hfilter, hinit, le_refl after.toNat, hcovered,
    fun _ hb => by cases hb⟩

end Spec

end PoaBridge
