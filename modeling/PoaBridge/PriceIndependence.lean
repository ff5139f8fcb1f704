import PoaBridge.Bridge
import PoaBridge.GasPrice
import PoaBridge.Lib.LockStep
import PoaBridge.Readings

/-!
# The two gas prices

Two runs of `BridgeEventStream` that differ in what happens to the gas prices of home
only.  The home price has no influence on the relays but one: the relay of withdrawals
can fail for want of funds, and then the run ends.

`get_gas_prices` polls the oracle of home first.  When that poll fails or ends, the
function returns, and the oracle of foreign is not polled.  `foreign_price_independent`
says that the foreign price does not depend on home in runs where this does not happen,
and `foreign_price_frozen` is a run where it does.
-/

namespace PoaBridge

open PollLoop

variable {Digest : Type}

/-! ## The relays -/

/-- The shared data with another gas price of home. -/
def Shared.withHomeGasPrice (self : Shared Digest) (price : UInt64) : Shared Digest :=
  { self with homeGasPrice := price }

@[simp] theorem Shared.withHomeGasPrice_homeBalance (self : Shared Digest) (price : UInt64) :
    (self.withHomeGasPrice price).homeBalance = self.homeBalance := rfl

@[simp] theorem Shared.withHomeGasPrice_foreignBalance (self : Shared Digest) (price : UInt64) :
    (self.withHomeGasPrice price).foreignBalance = self.foreignBalance := rfl

@[simp] theorem Shared.withHomeGasPrice_foreignGasPrice (self : Shared Digest) (price : UInt64) :
    (self.withHomeGasPrice price).foreignGasPrice = self.foreignGasPrice := rfl

/-- A machine and the shared data, with another gas price of home. -/
def withHomeGasPrice {ρ : Type} (price : UInt64) (self : ρ × Shared Digest) : ρ × Shared Digest :=
  (self.1, self.2.withHomeGasPrice price)

section Relays

variable {price : UInt64}

theorem pollJob_withHomeGasPrice (wallet : Wallet Digest) (relay : Relay) (side : Side)
    (job : Job) (future : NonceCheck) (shared : Shared Digest)
    (script : List (NonceCheck.Answers Digest)) :
    let polled := pollJob wallet relay side job future shared script
    pollJob wallet relay side job future (shared.withHomeGasPrice price) script
      = ((polled.1.1, polled.1.2.withHomeGasPrice price), polled.2) := by
  have hnonce : (shared.withHomeGasPrice price).nonce side = shared.nonce side := by
    cases side <;> rfl
  have hset : ∀ nonce, (shared.withHomeGasPrice price).setNonce side nonce
      = (shared.setNonce side nonce).withHomeGasPrice price := by
    intro nonce
    cases side <;> rfl
  unfold pollJob
  rw [hnonce]
  dsimp only
  rw [hset]
  split <;> rfl

section Loops

variable {ρ : Type} {context : String} {shared : Shared Digest}

theorem awaitItem_withHomeGasPrice {logs : LogStream} {script : List LogStream.Answers}
    {setLogs : LogStream → ρ}
    {next next' : LogStreamItem → ρ → Flow (ρ × Shared Digest) (Poll (Option BridgeChecked))}
    (hnext : ∀ item relay, next' item relay = (next item relay).map (withHomeGasPrice price)) :
    awaitItem context logs script (shared.withHomeGasPrice price) setLogs next'
      = (awaitItem context logs script shared setLogs next).map (withHomeGasPrice price) := by
  unfold awaitItem
  dsimp only
  rw [tryStream_map]
  simp only [hnext]
  rfl

theorem awaitBatch_withHomeGasPrice {app : App Digest} {relay : Relay} {side : Side}
    {future : Batch Digest} {script : Batch.Script Digest} {setFuture : Batch Digest → ρ}
    {next : ρ} :
    awaitBatch app relay side context future script (shared.withHomeGasPrice price) setFuture next
      = (awaitBatch app relay side context future script shared setFuture next).map
        (withHomeGasPrice price) := by
  unfold awaitBatch Batch.poll
  rw [Collect.poll_map_world (f := (·.withHomeGasPrice price))
    fun job future w answers => pollJob_withHomeGasPrice app.wallet relay side job future w answers]
  dsimp only
  rw [tryReady_map]
  rfl

end Loops

variable (app : App Digest)

theorem DepositRelay.body_withHomeGasPrice (price : UInt64)
    (self : DepositRelay Digest × Shared Digest) (answers : Answers Digest) :
    body app (withHomeGasPrice price self) answers
      = (body app self answers).map (withHomeGasPrice price) := by
  obtain ⟨⟨logs, state, contract, chainId⟩, shared⟩ := self
  unfold body withHomeGasPrice
  dsimp only
  cases state with
  | wait =>
    dsimp only
    rw [Shared.withHomeGasPrice_foreignBalance]
    cases shared.foreignBalance with
    | none => rfl
    | some balance =>
      refine awaitItem_withHomeGasPrice fun item relay => ?_
      rw [Shared.withHomeGasPrice_foreignGasPrice]
      split <;> rfl
  | relayDeposits future block => exact awaitBatch_withHomeGasPrice
  | yield block => cases block <;> rfl

theorem WithdrawConfirm.body_withHomeGasPrice (price : UInt64)
    (self : WithdrawConfirm Digest × Shared Digest) (answers : Answers Digest) :
    body app (withHomeGasPrice price self) answers
      = (body app self answers).map (withHomeGasPrice price) := by
  obtain ⟨⟨logs, state, contract, chainId⟩, shared⟩ := self
  unfold body withHomeGasPrice
  dsimp only
  cases state with
  | wait =>
    dsimp only
    rw [Shared.withHomeGasPrice_foreignBalance]
    cases shared.foreignBalance with
    | none => rfl
    | some balance =>
      refine awaitItem_withHomeGasPrice fun item relay => ?_
      rw [Shared.withHomeGasPrice_foreignGasPrice]
      split <;> rfl
  | confirmWithdraws future block => exact awaitBatch_withHomeGasPrice
  | yield block => cases block <;> rfl

/-- The machines agree, and the shared data up to the gas price of home. -/
def SameButPrice {ρ : Type} (a b : ρ × Shared Digest) : Prop :=
  ∃ price, b = withHomeGasPrice price a

theorem lockStep_of_map {ρ : Type} (price : UInt64)
    {flow flow' : Flow (ρ × Shared Digest) (Poll (Option BridgeChecked))}
    (h : flow' = flow.map (withHomeGasPrice price)) : LockStep SameButPrice flow flow' :=
  h ▸ .of_map fun _ => ⟨price, rfl⟩

/-- The price decides whether there are funds, and nothing else. -/
theorem WithdrawRelay.transactions_gasPrice (relay : WithdrawRelay Digest)
    (gasPrice gasPrice' : UInt64) (balance : U256) (assignments : List (Log × RelayAssignment))
    (messages : List Bytes) (signatures : List (List Bytes)) :
    relay.transactions app gasPrice balance assignments messages signatures
        = relay.transactions app gasPrice' balance assignments messages signatures ∨
      relay.transactions app gasPrice balance assignments messages signatures
        = .error .insufficientFunds ∨
      relay.transactions app gasPrice' balance assignments messages signatures
        = .error .insufficientFunds := by
  unfold transactions
  split
  · exact .inl rfl
  · split
    · exact .inr (.inl rfl)
    · split
      · exact .inr (.inr rfl)
      · exact .inl rfl

theorem WithdrawRelay.awaitFetch_lockStep (relay : WithdrawRelay Digest) (shared : Shared Digest)
    (answers : Answers Digest) (assignments : List (Log × RelayAssignment)) (future : Fetch)
    (block : UInt64) :
    LockStep SameButPrice (awaitFetch app relay shared answers assignments future block)
      (awaitFetch app relay (shared.withHomeGasPrice price) answers assignments future block) := by
  unfold awaitFetch
  rw [Shared.withHomeGasPrice_homeBalance]
  cases shared.homeBalance with
  | none => exact .ret ⟨price, rfl⟩
  | some balance =>
    dsimp only
    generalize pollFetch (answers.call · relay.foreignContract) future = polled
    obtain ⟨future', result⟩ := polled
    dsimp only
    generalize withContext "fetching messages and signatures from foreign" result = result
    rcases result with e | _ | ⟨messages, signatures⟩
    · exact .ret ⟨price, rfl⟩
    · exact .ret ⟨price, rfl⟩
    · dsimp only [tryReady]
      simp only [transactions_setState]
      rcases transactions_gasPrice app relay shared.homeGasPrice
        (shared.withHomeGasPrice price).homeGasPrice balance assignments messages signatures with
        heq | heq | heq
      · rw [heq]
        split
        · exact .ret ⟨price, rfl⟩
        · exact .next ⟨price, rfl⟩
      · rw [heq]
        exact .leftFails
      · rw [heq]
        exact .rightFails

theorem WithdrawRelay.body_lockStep (self : WithdrawRelay Digest × Shared Digest)
    (answers : Answers Digest) :
    LockStep SameButPrice (body app self answers)
      (body app (withHomeGasPrice price self) answers) := by
  obtain ⟨⟨logs, state, foreignContract, homeContract, chainId⟩, shared⟩ := self
  unfold body withHomeGasPrice
  dsimp only
  cases state with
  | wait =>
    refine lockStep_of_map price (awaitItem_withHomeGasPrice fun item relay => ?_)
    split <;> rfl
  | fetchMessagesSignatures assignments future block => exact awaitFetch_lockStep ..
  | relayWithdraws future block =>
    exact lockStep_of_map price awaitBatch_withHomeGasPrice
  | yield block =>
    cases block with
    | none => exact .next ⟨price, rfl⟩
    | some block => exact .ret ⟨price, rfl⟩

/-- A relay that is polled as a part of the selection. -/
theorem agree_of_relay {ρ : Type}
    {polled polled' : (ρ × Shared Digest) × Poll (Option BridgeChecked)}
    (h : Agree SameButPrice polled polled') (context : String) (select : ρ → Select Digest) :
    Agree SameButPrice ((select polled.1.1, polled.1.2), withContext context polled.2)
      ((select polled'.1.1, polled'.1.2), withContext context polled'.2) := by
  rcases h with ⟨⟨price, hself⟩, heq⟩ | ⟨e, heq⟩ | ⟨e, heq⟩
  · refine .inl ⟨⟨price, ?_⟩, congrArg (withContext context) heq⟩
    rw [hself]
    rfl
  · rw [heq]
    exact .inr (.inl ⟨_, rfl⟩)
  · rw [heq]
    exact .inr (.inr ⟨_, rfl⟩)

theorem Select.pollTurn_agree (self : Select Digest × Shared Digest) (turn : Turn Digest) :
    Agree SameButPrice (pollTurn app self turn)
      (pollTurn app (withHomeGasPrice price self) turn) := by
  obtain ⟨select, shared⟩ := self
  cases turn with
  | depositRelay script =>
    have hpoll := run_map_state (.ok .notReady) (DepositRelay.body_withHomeGasPrice app price)
      (select.depositRelay, shared) script
    refine @agree_of_relay _ _ (DepositRelay.poll app _ script)
      (DepositRelay.poll app (withHomeGasPrice price (select.depositRelay, shared)) script)
      (.inl ⟨⟨price, ?_⟩, ?_⟩) "deposit_relay" fun relay => { select with depositRelay := relay }
    · exact congrArg Prod.fst hpoll
    · exact (congrArg Prod.snd hpoll).symm
  | withdrawRelay script =>
    have hbody : ∀ s t answers, SameButPrice s t →
        LockStep SameButPrice (WithdrawRelay.body app s answers)
          (WithdrawRelay.body app t answers) := by
      rintro s _ answers ⟨price', rfl⟩
      exact WithdrawRelay.body_lockStep app s answers
    have hpoll := run_lockStep (R := SameButPrice) (.ok .notReady) hbody script
      (select.withdrawRelay, shared) _ ⟨price, rfl⟩
    exact agree_of_relay hpoll "withdraw_relay" fun relay => { select with withdrawRelay := relay }
  | withdrawConfirm script =>
    have hpoll := run_map_state (.ok .notReady) (WithdrawConfirm.body_withHomeGasPrice app price)
      (select.withdrawConfirm, shared) script
    refine @agree_of_relay _ _ (WithdrawConfirm.poll app _ script)
      (WithdrawConfirm.poll app (withHomeGasPrice price (select.withdrawConfirm, shared)) script)
      (.inl ⟨⟨price, ?_⟩, ?_⟩) "withdraw_confirm"
      fun relay => { select with withdrawConfirm := relay }
    · exact congrArg Prod.fst hpoll
    · exact (congrArg Prod.snd hpoll).symm

theorem Select.body_lockStep (self : Select Digest × Shared Digest) (turn : Turn Digest) :
    LockStep SameButPrice (body app self turn)
      (body app (withHomeGasPrice price self) turn) := by
  have hturn := @pollTurn_agree _ price app self turn
  unfold body
  generalize pollTurn app self turn = polled at hturn ⊢
  generalize pollTurn app (withHomeGasPrice price self) turn = polled' at hturn ⊢
  obtain ⟨self', result⟩ := polled
  obtain ⟨self'', result'⟩ := polled'
  rcases hturn with ⟨hself, heq⟩ | ⟨e, heq⟩ | ⟨e, heq⟩
  · dsimp only at hself heq
    subst heq
    rcases result with e | _ | _ | event
    · exact .ret hself
    · exact .next hself
    · exact .next hself
    · exact .ret hself
  · dsimp only at heq
    subst heq
    exact .leftFails
  · dsimp only at heq
    subst heq
    exact .rightFails

theorem Select.poll_agree (self : Select Digest × Shared Digest) (script : List (Turn Digest)) :
    Agree SameButPrice (poll app self script) (poll app (withHomeGasPrice price self) script) := by
  refine run_lockStep (R := SameButPrice) _ ?_ script _ _ ⟨price, rfl⟩
  rintro s _ turn ⟨price', rfl⟩
  exact body_lockStep app s turn

end Relays

namespace BridgeEventStream

/-! ## Runs that differ at home -/

/-- The stream with another gas price stream of home, and another price from it. -/
def withHome (gasStream : Option GasPriceStream) (price : UInt64)
    (self : BridgeEventStream Digest × Shared Digest) : BridgeEventStream Digest × Shared Digest :=
  ({ self.1 with homeGasStream := gasStream }, self.2.withHomeGasPrice price)

/-- The streams agree up to the gas prices of home. -/
def SameButHome (a b : BridgeEventStream Digest × Shared Digest) : Prop :=
  ∃ gasStream price, b = withHome gasStream price a

/-- The answers agree up to those to the gas price stream of home. -/
def Answers.SameButHome (a b : Answers Digest) : Prop :=
  b = { a with homeGasPrice := b.homeGasPrice }

/-- Whether `get_gas_prices` polls the gas price stream of foreign. -/
def pollsForeign (self : BridgeEventStream Digest × Shared Digest) (answers : Answers Digest) :
    Bool :=
  self.1.foreignGasStream.isSome &&
    (pollGasStream self.1.homeGasStream self.2.homeGasPrice answers.homeGasPrice).2.isOk

/-- An iteration that reads the gas prices shows whether it polls the stream of foreign. -/
def observedPrices (self : BridgeEventStream Digest × Shared Digest) (answers : Answers Digest) :
    List Bool :=
  match self.1.state with
  | .wait => if answers.running then [pollsForeign self answers] else []
  | _ => []

/-- What a poll shows of the foreign price. -/
structure PriceReport where
  polled : List Bool
  price : UInt64
deriving DecidableEq, Repr

/-- An error ends the run, and so does the end of the stream. -/
def goesOn : Poll (Option BridgeChecked) → Bool
  | .ok .notReady => true
  | .ok (.ready (some _)) => true
  | _ => false

/-- The reports of a run, poll by poll. -/
def priceReports (app : App Digest) :
    BridgeEventStream Digest × Shared Digest → List (List (Answers Digest)) → List PriceReport
  | _, [] => []
  | self, script :: scripts =>
    ⟨trace (body app) observedPrices self script, (poll app self script).1.2.foreignGasPrice⟩ ::
      if goesOn (poll app self script).2 then priceReports app (poll app self script).1 scripts
      else []

/-- When the iteration reads the gas prices of both nodes, the stream of home has a price, or
it is not ready. -/
def HomeYields (self : BridgeEventStream Digest × Shared Digest) (answers : Answers Digest) :
    Prop :=
  self.1.state = .wait → answers.running = true → self.1.foreignGasStream.isSome →
    ∀ stream, self.1.homeGasStream = some stream →
      GasPriceStream.Yields (stream.poll answers.homeGasPrice).2

/-- The stream of home does not fail or end in a run. -/
def HomeWorks (app : App Digest) :
    BridgeEventStream Digest × Shared Digest → List (List (Answers Digest)) → Prop
  | _, [] => True
  | self, script :: scripts => Along (body app) HomeYields self script ∧
      (goesOn (poll app self script).2 = true → HomeWorks app (poll app self script).1 scripts)

/-! ### The gas prices -/

variable {self : BridgeEventStream Digest × Shared Digest} {answers answers' : Answers Digest}

/-- The foreign part of `get_gas_prices`. -/
def pollForeign (self : BridgeEventStream Digest × Shared Digest) (answers : Answers Digest) :
    BridgeEventStream Digest × Shared Digest :=
  let polled := pollGasStream self.1.foreignGasStream self.2.foreignGasPrice answers.foreignGasPrice
  ({ self.1 with foreignGasStream := polled.1 },
    { self.2 with foreignGasPrice := polled.2.toOption.getD self.2.foreignGasPrice })

theorem isOk_of_yields (h : self.1.foreignGasStream.isSome → ∀ stream,
      self.1.homeGasStream = some stream →
        GasPriceStream.Yields (stream.poll answers.homeGasPrice).2) :
    pollsForeign self answers = self.1.foreignGasStream.isSome := by
  unfold pollsForeign
  cases hforeign : self.1.foreignGasStream with
  | none => rfl
  | some foreign =>
    unfold pollGasStream
    cases hhome : self.1.homeGasStream with
    | none => rfl
    | some stream =>
      rcases h (by rw [hforeign]; rfl) stream hhome with heq | ⟨price, heq⟩
      · dsimp only
        rw [heq]
        rfl
      · dsimp only
        rw [heq]
        rfl

theorem SameButHome.refl (a : BridgeEventStream Digest × Shared Digest) : SameButHome a a :=
  ⟨a.1.homeGasStream, a.2.homeGasPrice, rfl⟩

theorem SameButHome.symm {a b : BridgeEventStream Digest × Shared Digest}
    (h : SameButHome a b) : SameButHome b a := by
  obtain ⟨gasStream, price, rfl⟩ := h
  exact ⟨a.1.homeGasStream, a.2.homeGasPrice, rfl⟩

theorem SameButHome.trans {a b c : BridgeEventStream Digest × Shared Digest}
    (hab : SameButHome a b) (hbc : SameButHome b c) : SameButHome a c := by
  obtain ⟨gasStream, price, rfl⟩ := hab
  obtain ⟨gasStream', price', rfl⟩ := hbc
  exact ⟨gasStream', price', rfl⟩

theorem checkBalances_foreignGasStream (self : BridgeEventStream Digest × Shared Digest)
    (answers : Answers Digest) :
    (checkBalances self answers).1.1.foreignGasStream = self.1.foreignGasStream := by
  obtain ⟨_, _, _, _, hwrites⟩ := checkBalances_writes self answers
  rw [hwrites]

/-- `pollsForeign` is whether `get_gas_prices` polls the stream of foreign. -/
theorem getGasPrices_foreignGasStream (self : BridgeEventStream Digest × Shared Digest)
    (answers : Answers Digest) :
    (getGasPrices self answers).1.1.foreignGasStream
      = if pollsForeign self answers then
          self.1.foreignGasStream.map fun stream => (stream.poll answers.foreignGasPrice).1
        else self.1.foreignGasStream := by
  obtain ⟨⟨homeCheck, foreignCheck, bridge, state, homeGasStream, foreignGasStream⟩, shared⟩ := self
  unfold getGasPrices pollsForeign
  dsimp only
  generalize pollGasStream homeGasStream shared.homeGasPrice answers.homeGasPrice = home
  obtain ⟨gasStream, result⟩ := home
  cases foreignGasStream with
  | none => cases result <;> rfl
  | some stream =>
    cases result with
    | error result => rfl
    | ok price =>
      unfold pollGasStream
      dsimp only
      cases (tryBridge (stream.poll answers.foreignGasPrice).2).map
        (·.getD shared.foreignGasPrice) <;> rfl

/-- When the stream of foreign is not polled, it has no say in the gas prices. -/
theorem getGasPrices_of_not_polled (h : pollsForeign self answers = false)
    (script : List GasPriceStream.Answers) :
    getGasPrices self { answers with foreignGasPrice := script } = getGasPrices self answers := by
  obtain ⟨⟨homeCheck, foreignCheck, bridge, state, homeGasStream, foreignGasStream⟩, shared⟩ := self
  unfold pollsForeign at h
  unfold getGasPrices
  dsimp only at h ⊢
  generalize pollGasStream homeGasStream shared.homeGasPrice answers.homeGasPrice = home at h ⊢
  obtain ⟨gasStream, result⟩ := home
  cases result with
  | error result => rfl
  | ok price =>
    cases foreignGasStream with
    | none => rfl
    | some stream => cases h

theorem observedPrices_eq (self : BridgeEventStream Digest × Shared Digest)
    (answers : Answers Digest) : observedPrices self answers
      = if AsksRelays self answers then [pollsForeign self answers] else [] := by
  by_cases hasks : AsksRelays self answers
  · rw [if_pos hasks, observedPrices, hasks.1, hasks.2]
    rfl
  · rw [if_neg hasks, observedPrices]
    split
    · rename_i hstate
      exact if_neg fun hrunning => hasks ⟨hstate, hrunning⟩
    · rfl

/-- The iterations that show `true` are those that poll the stream of foreign. -/
theorem body_foreignGasStream (app : App Digest) (self : BridgeEventStream Digest × Shared Digest)
    (answers : Answers Digest) :
    (body app self answers).state.1.foreignGasStream
      = if observedPrices self answers = [true] then
          self.1.foreignGasStream.map fun stream => (stream.poll answers.foreignGasPrice).1
        else self.1.foreignGasStream := by
  by_cases hasks : AsksRelays self answers
  · simp only [observedPrices_eq, if_pos hasks, List.cons.injEq, and_true]
    obtain ⟨state, hstate⟩ := awaitEvent_state app (getGasPrices self answers).1 answers.bridge
    rw [← getGasPrices_foreignGasStream, body_of_asks hasks, hstate]
  · simp only [observedPrices_eq, if_neg hasks, (List.cons_ne_nil _ _).symm, if_false]
    exact body_keeps BridgeEventStream.foreignGasStream (fun _ _ => rfl)
      (fun _ => checkBalances_foreignGasStream self answers) hasks

/-- In the other iterations no answer to the stream of foreign makes a difference. -/
theorem body_of_not_polled (app : App Digest) (h : observedPrices self answers ≠ [true])
    (script : List GasPriceStream.Answers) :
    body app self { answers with foreignGasPrice := script } = body app self answers := by
  by_cases hasks : AsksRelays self answers
  · have hpolls : pollsForeign self answers = false := by
      rw [observedPrices_eq, if_pos hasks] at h
      exact Bool.eq_false_iff.2 fun hpolls => h (congrArg (fun polled => [polled]) hpolls)
    rw [body_of_asks hasks, @body_of_asks _ _ self { answers with foreignGasPrice := script } hasks,
      getGasPrices_of_not_polled hpolls]
  · exact body_congr ⟨rfl, fun _ => ⟨rfl, rfl⟩, fun h => absurd h hasks, fun _ => rfl⟩

/-- Up to home, `get_gas_prices` reads the foreign price. -/
theorem getGasPrices_eq (h : pollsForeign self answers = self.1.foreignGasStream.isSome) :
    SameButHome (pollForeign self answers) (getGasPrices self answers).1 := by
  obtain ⟨⟨homeCheck, foreignCheck, bridge, state, homeGasStream, foreignGasStream⟩, shared⟩ := self
  unfold pollsForeign at h
  unfold getGasPrices pollForeign
  dsimp only at h ⊢
  generalize pollGasStream homeGasStream shared.homeGasPrice answers.homeGasPrice = home at h ⊢
  obtain ⟨gasStream, result⟩ := home
  cases result with
  | error result =>
    -- the function has returned, so there is no stream of foreign
    cases foreignGasStream with
    | none => exact ⟨gasStream, shared.homeGasPrice, rfl⟩
    | some stream => cases h
  | ok price =>
    dsimp only
    split
    · rename_i result hresult
      rw [hresult]
      exact ⟨gasStream, price, rfl⟩
    · rename_i price' hresult
      rw [hresult]
      exact ⟨gasStream, price, rfl⟩

theorem pollForeign_withHome {gasStream : Option GasPriceStream} {price : UInt64}
    (h : Answers.SameButHome answers answers') :
    SameButHome (pollForeign self answers)
      (pollForeign (withHome gasStream price self) answers') := by
  rw [h]
  exact ⟨gasStream, price, rfl⟩

theorem checkBalances_withHome {gasStream : Option GasPriceStream} {price : UInt64}
    (h : Answers.SameButHome answers answers') :
    checkBalances (withHome gasStream price self) answers'
      = (withHome gasStream price (checkBalances self answers).1,
        (checkBalances self answers).2) := by
  rw [h]
  unfold checkBalances withHome Shared.withHomeGasPrice
  dsimp only
  split
  · rfl
  · split
    · rfl
    · split <;> rfl

/-! ### Two polls side by side -/

/-- The iteration does not go on to read the gas prices again, and `price` is the one of
foreign. -/
def Settled (price : UInt64)
    (flow : Flow (BridgeEventStream Digest × Shared Digest) (Poll (Option BridgeChecked))) : Prop :=
  flow.Sat (fun s => s.2.foreignGasPrice = price ∧ ∃ item, s.1.state = .nextItem (some item))
    fun s _ => s.2.foreignGasPrice = price

/-- Two iterations of runs that differ at home.  When one of them fails, the other one has
read the same foreign price, and its poll does not read another one. -/
inductive SideBySide :
    Flow (BridgeEventStream Digest × Shared Digest) (Poll (Option BridgeChecked)) →
      Flow (BridgeEventStream Digest × Shared Digest) (Poll (Option BridgeChecked)) → Prop where
  | next {s t : BridgeEventStream Digest × Shared Digest} : SameButHome s t →
    SideBySide (.next s) (.next t)
  | ret {s t : BridgeEventStream Digest × Shared Digest} {r : Poll (Option BridgeChecked)} :
    SameButHome s t → SideBySide (.ret s r) (.ret t r)
  | leftFails {price : UInt64} {s : BridgeEventStream Digest × Shared Digest} {e : Error}
    {flow : Flow (BridgeEventStream Digest × Shared Digest) (Poll (Option BridgeChecked))} :
    s.2.foreignGasPrice = price → Settled price flow → SideBySide (.ret s (.error e)) flow
  | rightFails {price : UInt64} {t : BridgeEventStream Digest × Shared Digest} {e : Error}
    {flow : Flow (BridgeEventStream Digest × Shared Digest) (Poll (Option BridgeChecked))} :
    t.2.foreignGasPrice = price → Settled price flow → SideBySide flow (.ret t (.error e))

variable (app : App Digest)

/-- After the gas prices, the relays are polled and the iteration is settled. -/
theorem awaitEvent_settled (self : BridgeEventStream Digest × Shared Digest)
    (script : List (Select.Turn Digest)) :
    Settled self.2.foreignGasPrice (awaitEvent app self script) := by
  have hreadings := congrArg Readings.foreignGasPrice
    (Select.poll_readings app (self.1.bridge, self.2) script)
  unfold awaitEvent
  exact tryStream_sat (fun _ _ => hreadings) (fun _ => hreadings) (fun _ => hreadings)
    fun item _ => ⟨hreadings, item, rfl⟩

/-- An error of the relays is the error of the iteration. -/
theorem awaitEvent_of_error {s : BridgeEventStream Digest × Shared Digest}
    {script : List (Select.Turn Digest)} {e : Error}
    (h : (Select.poll app (s.1.bridge, s.2) script).2 = .error e) :
    ∃ s', s'.2.foreignGasPrice = s.2.foreignGasPrice ∧
      awaitEvent app s script = .ret s' (.error e) := by
  have hsettled := awaitEvent_settled app s script
  unfold awaitEvent at hsettled ⊢
  dsimp only at hsettled ⊢
  rw [h] at hsettled ⊢
  exact ⟨_, hsettled, rfl⟩

theorem awaitEvent_sideBySide {s t : BridgeEventStream Digest × Shared Digest}
    (h : SameButHome s t) (script : List (Select.Turn Digest)) :
    SideBySide (awaitEvent app s script) (awaitEvent app t script) := by
  obtain ⟨gasStream, price, rfl⟩ := h
  rcases @Select.poll_agree _ price app (s.1.bridge, s.2) script with
    ⟨⟨price', hbridge⟩, hresult⟩ | ⟨e, herror⟩ | ⟨e, herror⟩
  · unfold awaitEvent
    rw [show ((withHome gasStream price s).1.bridge, (withHome gasStream price s).2)
      = withHomeGasPrice price (s.1.bridge, s.2) from rfl]
    generalize Select.poll app (s.1.bridge, s.2) script = polled at hbridge hresult ⊢
    generalize Select.poll app (withHomeGasPrice price (s.1.bridge, s.2)) script = polled'
      at hbridge hresult ⊢
    obtain ⟨⟨bridge, shared⟩, result⟩ := polled
    obtain ⟨self', result'⟩ := polled'
    dsimp only at hbridge hresult
    subst hbridge hresult
    rcases result with e | _ | _ | event
    · exact .ret ⟨gasStream, price', rfl⟩
    · exact .ret ⟨gasStream, price', rfl⟩
    · exact .ret ⟨gasStream, price', rfl⟩
    · exact .next ⟨gasStream, price', rfl⟩
  · obtain ⟨s', hprice, hfails⟩ := awaitEvent_of_error app herror
    rw [hfails]
    exact .leftFails hprice (awaitEvent_settled app (withHome gasStream price s) script)
  · obtain ⟨t', hprice, hfails⟩ :=
      @awaitEvent_of_error _ app (withHome gasStream price s) _ _ herror
    rw [hfails]
    exact .rightFails hprice (awaitEvent_settled app s script)

theorem body_sideBySide {s t : BridgeEventStream Digest × Shared Digest} (h : SameButHome s t)
    (hanswers : Answers.SameButHome answers answers') (hs : HomeYields s answers)
    (ht : HomeYields t answers') :
    observedPrices s answers = observedPrices t answers' ∧
      SideBySide (body app s answers) (body app t answers') := by
  obtain ⟨gasStream, price, rfl⟩ := h
  have hstate : (withHome gasStream price s).1.state = s.1.state := rfl
  have hrunning : answers'.running = answers.running := by rw [hanswers]
  have hbridge : answers'.bridge = answers.bridge := by rw [hanswers]
  unfold observedPrices body
  rw [hstate, hrunning, hbridge]
  cases hs' : s.1.state with
  | init =>
    refine ⟨rfl, ?_⟩
    dsimp only
    rw [checkBalances_withHome hanswers]
    rcases checkBalances s answers with ⟨⟨stream, shared⟩, e | _ | _⟩
    · exact .ret ⟨gasStream, price, rfl⟩
    · exact .ret ⟨gasStream, price, rfl⟩
    · exact .next ⟨gasStream, price, rfl⟩
  | wait =>
    dsimp only
    cases hrun : answers.running with
    | false => exact ⟨rfl, .ret ⟨gasStream, price, rfl⟩⟩
    | true =>
      have hpolls := isOk_of_yields (hs hs' hrun)
      have hpolls' := isOk_of_yields (ht hs' (hrunning.trans hrun))
      refine ⟨by simp only [if_true, hpolls, hpolls']; rfl, ?_⟩
      have hsame := ((getGasPrices_eq hpolls).symm.trans (pollForeign_withHome hanswers)).trans
        (getGasPrices_eq hpolls')
      exact awaitEvent_sideBySide app hsame answers.bridge
  | nextItem item =>
    refine ⟨rfl, ?_⟩
    cases item with
    | none => exact .next ⟨gasStream, price, rfl⟩
    | some item => exact .ret ⟨gasStream, price, rfl⟩

/-- What is left of a poll that has an event to return. -/
theorem poll_of_nextItem {s : BridgeEventStream Digest × Shared Digest} {item : BridgeChecked}
    (h : s.1.state = .nextItem (some item)) (script : List (Answers Digest)) :
    trace (body app) observedPrices s script = [] ∧
      (poll app s script).1.2.foreignGasPrice = s.2.foreignGasPrice := by
  cases script with
  | nil => exact ⟨rfl, rfl⟩
  | cons answers script =>
    unfold poll
    rw [trace, run, observedPrices, body, h]
    exact ⟨rfl, rfl⟩

/-- What a poll shows is the same in both runs, and so is what it leaves, unless one of them
ends with it. -/
theorem poll_sideBySide {script script' : List (Answers Digest)}
    (hscript : List.Forall₂ Answers.SameButHome script script') :
    ∀ {s t : BridgeEventStream Digest × Shared Digest}, SameButHome s t →
      Along (body app) HomeYields s script → Along (body app) HomeYields t script' →
      trace (body app) observedPrices s script = trace (body app) observedPrices t script' ∧
        (poll app s script).1.2.foreignGasPrice = (poll app t script').1.2.foreignGasPrice ∧
        Agree SameButHome (poll app s script) (poll app t script') := by
  unfold poll
  induction hscript with
  | nil =>
    intro s t h _ _
    refine ⟨rfl, ?_, .inl ⟨h, rfl⟩⟩
    obtain ⟨gasStream, price, rfl⟩ := h
    rfl
  | @cons answers answers' script script' hanswers _ ih =>
    intro s t h hs ht
    obtain ⟨hobserved, hbody⟩ := body_sideBySide app h hanswers hs.1 ht.1
    have hs := hs.2
    have ht := ht.2
    rw [trace, trace, run, run, hobserved]
    generalize body app s answers = flow at hbody hs ⊢
    generalize body app t answers' = flow' at hbody ht ⊢
    cases hbody with
    | next h' =>
      obtain ⟨htrace, hrest⟩ := ih h' hs ht
      exact ⟨congrArg _ htrace, hrest⟩
    | @ret s' t' r h' =>
      refine ⟨rfl, ?_, .inl ⟨h', rfl⟩⟩
      obtain ⟨gasStream, price, rfl⟩ := h'
      rfl
    | leftFails hprice hsettled =>
      cases flow' with
      | next t' =>
        obtain ⟨hprice', item, hitem⟩ := hsettled
        obtain ⟨htrace, hkept⟩ := poll_of_nextItem app hitem script'
        exact ⟨congrArg _ htrace.symm, (hprice.trans hprice'.symm).trans hkept.symm,
          .inr (.inl ⟨_, rfl⟩)⟩
      | ret t' r => exact ⟨rfl, hprice.trans hsettled.symm, .inr (.inl ⟨_, rfl⟩)⟩
    | rightFails hprice hsettled =>
      cases flow with
      | next s' =>
        obtain ⟨hprice', item, hitem⟩ := hsettled
        obtain ⟨htrace, hkept⟩ := poll_of_nextItem app hitem script
        exact ⟨congrArg _ htrace, (hkept.trans hprice').trans hprice.symm,
          .inr (.inr ⟨_, rfl⟩)⟩
      | ret s' r => exact ⟨rfl, hsettled.trans hprice.symm, .inr (.inr ⟨_, rfl⟩)⟩

theorem reports_sideBySide {scripts scripts' : List (List (Answers Digest))}
    (hscripts : List.Forall₂ (List.Forall₂ Answers.SameButHome) scripts scripts') :
    ∀ {s t : BridgeEventStream Digest × Shared Digest}, SameButHome s t →
      HomeWorks app s scripts → HomeWorks app t scripts' →
      priceReports app s scripts <+: priceReports app t scripts' ∨
        priceReports app t scripts' <+: priceReports app s scripts := by
  induction hscripts with
  | nil => exact fun _ _ _ => .inl (List.prefix_refl _)
  | @cons script script' scripts scripts' hscript _ ih =>
    intro s t h hs ht
    obtain ⟨htrace, hprice, hagree⟩ := poll_sideBySide app hscript h hs.1 ht.1
    rw [priceReports, priceReports, htrace, hprice, List.prefix_cons_inj, List.prefix_cons_inj]
    rcases hagree with ⟨hself, hresult⟩ | ⟨e, herror⟩ | ⟨e, herror⟩
    · rw [← hresult]
      split
      · rename_i hgoes
        exact ih hself (hs.2 hgoes) (ht.2 (hresult ▸ hgoes))
      · exact .inl (List.prefix_refl _)
    · rw [herror]
      exact .inl (List.nil_prefix)
    · rw [herror]
      exact .inr (List.nil_prefix)

/-- An interval that works is enough for the stream of home. -/
theorem homeWorks_of_ticks {scripts : List (List (Answers Digest))}
    (h : ∀ script ∈ scripts, ∀ answers ∈ script, ∀ a ∈ answers.homeGasPrice, a.Ticks) :
    ∀ self : BridgeEventStream Digest × Shared Digest, HomeWorks app self scripts := by
  induction scripts with
  | nil => exact fun _ => trivial
  | cons script scripts ih =>
    obtain ⟨hscript, hrest⟩ := List.forall_mem_cons.1 h
    refine fun self => ⟨?_, fun _ => ih hrest _⟩
    refine along_of_invariant (P := fun _ => True) script self (fun answers hmem s _ => ⟨?_, ?_⟩)
      trivial
    · exact fun _ _ _ stream _ => GasPriceStream.poll_yields (hscript answers hmem) stream
    · cases body app s answers <;> trivial

/-- The foreign gas price does not depend on the stream of home, in runs where that stream
does not fail or end: two runs that differ in its outcomes only poll the stream of foreign
at the same points, and have the same foreign price after every poll.  One of them can end
before the other one. -/
theorem foreign_price_independent (self : BridgeEventStream Digest × Shared Digest)
    (scripts scripts' : List (List (Answers Digest)))
    (hscripts : List.Forall₂ (List.Forall₂ Answers.SameButHome) scripts scripts')
    (hworks : HomeWorks app self scripts) (hworks' : HomeWorks app self scripts') :
    priceReports app self scripts <+: priceReports app self scripts' ∨
      priceReports app self scripts' <+: priceReports app self scripts :=
  reports_sideBySide app hscripts (SameButHome.refl self) hworks hworks'

/-! ### Two oracles -/

def oracleApp : App Bytes :=
  { World.authorityApp with
    home := GasPriceStream.oracleNode
    foreign := GasPriceStream.oracleNode }

def oracleStart : BridgeEventStream Bytes × Shared Bytes :=
  (createBridgeEventStream oracleApp World.deployedDatabase 1 2, ⟨0, 0, none, none, 15, 15, []⟩)

/-- Both balances arrive at once, and the oracle of foreign has the price 20. -/
def oracleAnswers (home : List GasPriceStream.Answers) : Answers Bytes where
  homeBalance := List.replicate 3 (.ok (.ready 100))
  foreignBalance := List.replicate 3 (.ok (.ready 100))
  running := true
  homeGasPrice := home
  foreignGasPrice := List.replicate 3
    ⟨.ok (.ready (some ())), .ok (.ready (some fun _ => some (.number 20)))⟩
  bridge := []

/-- One poll, with the given answers to the stream of home. -/
def oracleScripts (home : List GasPriceStream.Answers) : List (List (Answers Bytes)) :=
  [[oracleAnswers home, oracleAnswers home]]

/-- The interval of home fails. -/
def failingOracle : List GasPriceStream.Answers := [⟨.error .timer, .ok .notReady⟩]

def waitingOracle : List GasPriceStream.Answers := [⟨.ok .notReady, .ok .notReady⟩]

/-- The oracle of home has the price 30. -/
def pricedOracle : List GasPriceStream.Answers :=
  List.replicate 3 ⟨.ok (.ready (some ())), .ok (.ready (some fun _ => some (.number 30)))⟩

theorem foreign_price_independent_priced :
    (priceReports oracleApp oracleStart (oracleScripts waitingOracle)
          <+: priceReports oracleApp oracleStart (oracleScripts pricedOracle) ∨
        priceReports oracleApp oracleStart (oracleScripts pricedOracle)
          <+: priceReports oracleApp oracleStart (oracleScripts waitingOracle)) ∧
      priceReports oracleApp oracleStart (oracleScripts pricedOracle) = [⟨[true], 20⟩] := by
  have hwaiting : ∀ script ∈ oracleScripts waitingOracle, ∀ answers ∈ script,
      ∀ a ∈ answers.homeGasPrice, a.Ticks := by
    intro script hscript answers hanswers a ha
    obtain rfl := List.mem_singleton.1 hscript
    rcases List.mem_pair.1 hanswers with rfl | rfl <;>
      exact .inl (List.mem_singleton.1 ha ▸ rfl)
  have hpriced : ∀ script ∈ oracleScripts pricedOracle, ∀ answers ∈ script,
      ∀ a ∈ answers.homeGasPrice, a.Ticks := by
    intro script hscript answers hanswers a ha
    obtain rfl := List.mem_singleton.1 hscript
    rcases List.mem_pair.1 hanswers with rfl | rfl <;>
      exact .inr ((List.mem_replicate.1 ha).2 ▸ rfl)
  exact ⟨foreign_price_independent oracleApp oracleStart (oracleScripts waitingOracle)
    (oracleScripts pricedOracle) (.cons (.cons rfl (.cons rfl .nil)) .nil)
    (homeWorks_of_ticks oracleApp hwaiting oracleStart)
    (homeWorks_of_ticks oracleApp hpriced oracleStart), by decide +kernel⟩

/-- The interval of home fails in one of the two runs, and there the foreign price stays at
the default. -/
theorem foreign_price_frozen :
    List.Forall₂ (List.Forall₂ Answers.SameButHome) (oracleScripts failingOracle)
        (oracleScripts waitingOracle) ∧
      priceReports oracleApp oracleStart (oracleScripts failingOracle) = [⟨[false], 15⟩] ∧
      priceReports oracleApp oracleStart (oracleScripts waitingOracle) = [⟨[true], 20⟩] ∧
      ¬ (priceReports oracleApp oracleStart (oracleScripts failingOracle)
            <+: priceReports oracleApp oracleStart (oracleScripts waitingOracle) ∨
          priceReports oracleApp oracleStart (oracleScripts waitingOracle)
            <+: priceReports oracleApp oracleStart (oracleScripts failingOracle)) := by
  have hfailing : priceReports oracleApp oracleStart (oracleScripts failingOracle)
      = [⟨[false], 15⟩] := by decide +kernel
  have hwaiting : priceReports oracleApp oracleStart (oracleScripts waitingOracle)
      = [⟨[true], 20⟩] := by decide +kernel
  refine ⟨.cons (.cons rfl (.cons rfl .nil)) .nil, hfailing, hwaiting, ?_⟩
  rw [hfailing, hwaiting]
  decide

end BridgeEventStream

end PoaBridge
