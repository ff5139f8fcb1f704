import PoaBridge.DepositRelay
import PoaBridge.Monitor
import PoaBridge.WithdrawConfirm
import PoaBridge.WithdrawRelay

/-!
# The stream of events

`BridgeEventStream` of `bridge/src/bridge/mod.rs`: the three relays, selected into
one stream, and the checks of the balances and of the gas prices around it.

`Select` stands for the two `select`s of the stream combinators.  Which relay is
polled when is up to the script, so every order is one of the scripts.

`BridgeEventStream.poll_spec` is what the bridge uses: a poll only adds valid
receipts to the record, and an event that it returns is one that its relay
reported.
-/

namespace PoaBridge

open PollLoop

variable {Digest : Type}

/-! ## The selected relays -/

/-- `deposit_relay.select(withdraw_relay).select(withdraw_confirm)`. -/
structure Select (Digest : Type) where
  depositRelay : DepositRelay Digest
  withdrawRelay : WithdrawRelay Digest
  withdrawConfirm : WithdrawConfirm Digest

namespace Select

/-- The relay that is polled next, and what the nodes answer. -/
inductive Turn (Digest : Type) where
  | depositRelay (script : List (DepositRelay.Answers Digest))
  | withdrawRelay (script : List (WithdrawRelay.Answers Digest))
  | withdrawConfirm (script : List (WithdrawConfirm.Answers Digest))

/-- One relay is polled. -/
def pollTurn (app : App Digest) (self : Select Digest × Shared Digest) :
    Turn Digest → (Select Digest × Shared Digest) × Poll (Option BridgeChecked)
  | .depositRelay script =>
    let ((relay, shared), result) := DepositRelay.poll app (self.1.depositRelay, self.2) script
    (({ self.1 with depositRelay := relay }, shared), withContext "deposit_relay" result)
  | .withdrawRelay script =>
    let ((relay, shared), result) := WithdrawRelay.poll app (self.1.withdrawRelay, self.2) script
    (({ self.1 with withdrawRelay := relay }, shared), withContext "withdraw_relay" result)
  | .withdrawConfirm script =>
    let ((relay, shared), result) :=
      WithdrawConfirm.poll app (self.1.withdrawConfirm, self.2) script
    (({ self.1 with withdrawConfirm := relay }, shared), withContext "withdraw_confirm" result)

/-- An event and an error end the poll.  After a relay that has nothing, another
one can be polled. -/
def body (app : App Digest) (self : Select Digest × Shared Digest) (turn : Turn Digest) :
    Flow (Select Digest × Shared Digest) (Poll (Option BridgeChecked)) :=
  match pollTurn app self turn with
  | (self, .error e) => .ret self (.error e)
  | (self, .ok (.ready (some event))) => .ret self (.ok (.ready (some event)))
  | (self, .ok (.ready none)) => .next self
  | (self, .ok .notReady) => .next self

def poll (app : App Digest) (self : Select Digest × Shared Digest)
    (script : List (Turn Digest)) :
    (Select Digest × Shared Digest) × Poll (Option BridgeChecked) :=
  run (body app) (.ok .notReady) self script

/-- The stream of logs of a relay. -/
def logs (self : Select Digest) : Relay → LogStream
  | .depositRelay => self.depositRelay.logs
  | .withdrawRelay => self.withdrawRelay.logs
  | .withdrawConfirm => self.withdrawConfirm.logs

end Select

/-! ## The stream -/

/-- `BridgeStatus`. -/
inductive BridgeStatus where
  | init
  | wait
  | nextItem (item : Option BridgeChecked)
deriving DecidableEq, Repr

structure BridgeEventStream (Digest : Type) where
  homeBalanceCheck : BalanceCheck
  foreignBalanceCheck : BalanceCheck
  bridge : Select Digest
  state : BridgeStatus
  homeGasStream : Option GasPriceStream
  foreignGasStream : Option GasPriceStream

/-- The gas price stream of a node that has an oracle. -/
def createGasStream (node : NodeConfig) : Option GasPriceStream :=
  if node.gasPriceOracleUrl.isSome then some (GasPriceStream.newWithRetriever node) else none

/-- `create_bridge_event_stream`. -/
def createBridgeEventStream (app : App Digest) (init : Database)
    (homeChainId foreignChainId : UInt64) : BridgeEventStream Digest where
  homeBalanceCheck := createBalanceCheck
  foreignBalanceCheck := createBalanceCheck
  bridge := {
    depositRelay := createDepositRelay app init foreignChainId
    withdrawRelay := createWithdrawRelay app init homeChainId
    withdrawConfirm := createWithdrawConfirm app init foreignChainId }
  state := .init
  homeGasStream := createGasStream app.home
  foreignGasStream := createGasStream app.foreign

/-- `try_bridge!`: an error and the end of the stream return at once, and a
stream that is not ready gives no value. -/
def tryBridge {α : Type} : Poll (Option α) → Except (Poll (Option Unit)) (Option α)
  | .error e => .error (.error e)
  | .ok .notReady => .ok none
  | .ok (.ready none) => .error (.ok (.ready none))
  | .ok (.ready (some value)) => .ok (some value)

namespace BridgeEventStream

/-- What happens in one iteration: the answers of the nodes and of the oracles,
the flag of the signal handler, and the turns of the relays. -/
structure Answers (Digest : Type) where
  homeBalance : List (Poll U256)
  foreignBalance : List (Poll U256)
  running : Bool
  homeGasPrice : List GasPriceStream.Answers
  foreignGasPrice : List GasPriceStream.Answers
  bridge : List (Select.Turn Digest)

/-- `check_balances`. -/
def checkBalances (self : BridgeEventStream Digest × Shared Digest) (answers : Answers Digest) :
    (BridgeEventStream Digest × Shared Digest) × Poll (Option Unit) :=
  let (stream, shared) := self
  let (check, result) := stream.homeBalanceCheck.poll answers.homeBalance
  let stream := { stream with homeBalanceCheck := check }
  match tryBridge result with
  | .error result => ((stream, shared), result)
  | .ok balance =>
    let shared := { shared with homeBalance := balance.or shared.homeBalance }
    let (check, result) := stream.foreignBalanceCheck.poll answers.foreignBalance
    let stream := { stream with foreignBalanceCheck := check }
    match tryBridge result with
    | .error result => ((stream, shared), result)
    | .ok balance =>
      let shared := { shared with foreignBalance := balance.or shared.foreignBalance }
      if shared.homeBalance.isNone || shared.foreignBalance.isNone then
        ((stream, shared), .ok .notReady)
      else ((stream, shared), .ok (.ready none))

/-- The price of one node: `if let Some(ref mut stream) = .. { .. }`. -/
def pollGasStream (stream : Option GasPriceStream) (price : UInt64)
    (script : List GasPriceStream.Answers) :
    Option GasPriceStream × Except (Poll (Option Unit)) UInt64 :=
  match stream with
  | none => (none, .ok price)
  | some stream =>
    let (stream, result) := stream.poll script
    (some stream, (tryBridge result).map (·.getD price))

/-- `get_gas_prices`.  The home stream comes first, and its early return is the
return of the function. -/
def getGasPrices (self : BridgeEventStream Digest × Shared Digest) (answers : Answers Digest) :
    (BridgeEventStream Digest × Shared Digest) × Poll (Option Unit) :=
  let (stream, shared) := self
  let (gasStream, result) :=
    pollGasStream stream.homeGasStream shared.homeGasPrice answers.homeGasPrice
  let stream := { stream with homeGasStream := gasStream }
  match result with
  | .error result => ((stream, shared), result)
  | .ok price =>
    let shared := { shared with homeGasPrice := price }
    let (gasStream, result) :=
      pollGasStream stream.foreignGasStream shared.foreignGasPrice answers.foreignGasPrice
    let stream := { stream with foreignGasStream := gasStream }
    match result with
    | .error result => ((stream, shared), result)
    | .ok price => ((stream, { shared with foreignGasPrice := price }), .ok (.ready none))

/-- `try_stream!(self.bridge.poll())` in the state `Wait`. -/
def awaitEvent (app : App Digest) (self : BridgeEventStream Digest × Shared Digest)
    (script : List (Select.Turn Digest)) :
    Flow (BridgeEventStream Digest × Shared Digest) (Poll (Option BridgeChecked)) :=
  let ((bridge, shared), item) := Select.poll app (self.1.bridge, self.2) script
  let stream := { self.1 with bridge := bridge }
  tryStream (stream, shared) item fun item =>
    .next ({ stream with state := .nextItem (some item) }, shared)

/-- One iteration of the loop in `BridgeEventStream::poll`. -/
def body (app : App Digest) (self : BridgeEventStream Digest × Shared Digest)
    (answers : Answers Digest) :
    Flow (BridgeEventStream Digest × Shared Digest) (Poll (Option BridgeChecked)) :=
  match self.1.state with
  | .init =>
    match checkBalances self answers with
    | (self, .error e) => .ret self (.error e)
    | (self, .ok .notReady) => .ret self (.ok .notReady)
    | ((stream, shared), .ok (.ready _)) => .next ({ stream with state := .wait }, shared)
  | .wait =>
    if answers.running then
      let (self, _) := getGasPrices self answers
      awaitEvent app self answers.bridge
    else .ret self (.error .shutdownRequested)
  | .nextItem none => .next ({ self.1 with state := .init }, self.2)
  | .nextItem (some item) =>
    .ret ({ self.1 with state := .nextItem none }, self.2) (.ok (.ready (some item)))

/-- `BridgeEventStream::poll`. -/
def poll (app : App Digest) (self : BridgeEventStream Digest × Shared Digest)
    (script : List (Answers Digest)) :
    (BridgeEventStream Digest × Shared Digest) × Poll (Option BridgeChecked) :=
  run (body app) (.ok .notReady) self script

end BridgeEventStream

/-! ## What the relays are for -/

/-- What the nodes report about the two chains: the logs of every block, and the
results of calls of contracts. -/
structure Chains where
  home : Nat → List Log
  foreign : Nat → List Log
  called : Address → Bytes → Bytes → Prop

/-- What each of the relays is for. -/
def relaySpec (app : App Digest) (init : Database) (chains : Chains) : Relay → Spec
  | .depositRelay => DepositRelay.spec app init chains.home
  | .withdrawRelay => WithdrawRelay.spec app init chains.foreign chains.called
  | .withdrawConfirm => WithdrawConfirm.spec app init chains.foreign

variable {app : App Digest} {init : Database} {chains : Chains} {floor : Relay → Nat}

@[simp] theorem relay_relaySpec (app : App Digest) (init : Database) (chains : Chains)
    (relay : Relay) : (relaySpec app init chains relay).relay = relay := by
  cases relay <;> rfl

/-- The record has grown by valid receipts. -/
def Recorded (app : App Digest) (init : Database) (chains : Chains)
    (before after : Shared Digest) : Prop :=
  ∃ new, after.receipts = before.receipts ++ new ∧
    ∀ receipt ∈ new, (relaySpec app init chains receipt.relay).Valid app receipt

namespace Recorded

theorem of_eq {before after : Shared Digest} (h : after.receipts = before.receipts) :
    Recorded app init chains before after :=
  ⟨[], by rw [h, List.append_nil], by simp⟩

theorem trans {a b c : Shared Digest} (hab : Recorded app init chains a b)
    (hbc : Recorded app init chains b c) : Recorded app init chains a c := by
  obtain ⟨new, hnew, hvalid⟩ := hab
  obtain ⟨new', hnew', hvalid'⟩ := hbc
  refine ⟨new ++ new', by rw [hnew', hnew, List.append_assoc], ?_⟩
  intro receipt hmem
  rcases List.mem_append.1 hmem with hmem | hmem
  · exact hvalid receipt hmem
  · exact hvalid' receipt hmem

theorem of_step {relay : Relay} {before after : Shared Digest}
    (h : (relaySpec app init chains relay).Step app before after) :
    Recorded app init chains before after := by
  obtain ⟨new, hnew, hvalid⟩ := h.receipts
  refine ⟨new, hnew, ?_⟩
  intro receipt hmem
  obtain ⟨hrelay, hreceipt⟩ := hvalid receipt hmem
  rw [relay_relaySpec] at hrelay
  rw [hrelay]
  exact hreceipt

/-- A log that is relayed stays relayed. -/
theorem done_subperm {before after : Shared Digest} (h : Recorded app init chains before after)
    (relay : Relay) :
    ((before.done relay).map Job.log).Subperm ((after.done relay).map Job.log) := by
  obtain ⟨new, hnew, -⟩ := h
  rw [Shared.done, Shared.done, hnew, List.filter_append, List.map_append, List.map_append]
  exact (List.sublist_append_left _ _).subperm

end Recorded

namespace Select

/-- The nodes report all logs. -/
def Turn.Honest (chains : Chains) : Turn Digest → Prop
  | .depositRelay script => ∀ answers ∈ script, ∀ a ∈ answers.logs, Complete chains.home a
  | .withdrawRelay script => ∀ answers ∈ script, answers.Honest chains.foreign chains.called
  | .withdrawConfirm script => ∀ answers ∈ script, ∀ a ∈ answers.logs, Complete chains.foreign a

/-- The invariant of the three relays.  `floor` is the last block that each of them
has reported. -/
structure Inv (app : App Digest) (init : Database) (chains : Chains) (floor : Relay → Nat)
    (select : Select Digest) (shared : Shared Digest) : Prop where
  depositRelay : DepositRelay.Inv app init chains.home (floor .depositRelay)
    select.depositRelay shared
  withdrawRelay : WithdrawRelay.Inv app init chains.foreign chains.called (floor .withdrawRelay)
    select.withdrawRelay shared
  withdrawConfirm : WithdrawConfirm.Inv app init chains.foreign (floor .withdrawConfirm)
    select.withdrawConfirm shared

/-- The relay of the event has relayed everything up to its block. -/
def Reported (app : App Digest) (init : Database) (chains : Chains) (floor : Relay → Nat)
    (select : Select Digest) (shared : Shared Digest) (event : BridgeChecked) : Prop :=
  (relaySpec app init chains event.relay).Reported (init.checked event.relay).toNat
    (floor event.relay) (select.logs event.relay) shared event

/-- What a poll establishes. -/
def Post (app : App Digest) (init : Database) (chains : Chains) (floor : Relay → Nat)
    (start : Shared Digest) (self : Select Digest × Shared Digest)
    (result : Poll (Option BridgeChecked)) : Prop :=
  Recorded app init chains start self.2 ∧ ((∀ e, result ≠ .error e) →
    Inv app init chains floor self.1 self.2 ∧
    ∀ event, result = .ok (.ready (some event)) →
      Reported app init chains floor self.1 self.2 event)

theorem Inv.of_receipts {select : Select Digest} {shared shared' : Shared Digest}
    (h : Inv app init chains floor select shared) (hreceipts : shared'.receipts = shared.receipts) :
    Inv app init chains floor select shared' := by
  have hdone : ∀ relay, shared'.done relay = shared.done relay := by
    intro relay
    rw [Shared.done, Shared.done, hreceipts]
  exact ⟨h.depositRelay.frame (hdone _), h.withdrawRelay.frame (hdone _),
    h.withdrawConfirm.frame (hdone _)⟩

theorem Inv.floor_le {select : Select Digest} {shared : Shared Digest}
    (h : Inv app init chains floor select shared) (relay : Relay) :
    floor relay ≤ (select.logs relay).position := by
  cases relay with
  | depositRelay => exact h.depositRelay.progress.floor_le
  | withdrawRelay => exact h.withdrawRelay.progress.floor_le
  | withdrawConfirm => exact h.withdrawConfirm.progress.floor_le

theorem Inv.setFloor {select : Select Digest} {shared : Shared Digest}
    (h : Inv app init chains floor select shared) {floor' : Relay → Nat}
    (hfloor : ∀ relay, floor relay ≤ floor' relay)
    (hle : ∀ relay, floor' relay ≤ (select.logs relay).position) :
    Inv app init chains floor' select shared :=
  ⟨h.depositRelay.setFloor (hfloor _) (hle .depositRelay),
    h.withdrawRelay.setFloor (hfloor _) (hle .withdrawRelay),
    h.withdrawConfirm.setFloor (hfloor _) (hle .withdrawConfirm)⟩

/-- What a poll of one relay establishes for all three: the record of the others
is as it was. -/
theorem post_of_relay {ρ : Type} {relay : Relay} {RelayInv : ρ → Shared Digest → Prop}
    {logsOf : ρ → LogStream} {start : Shared Digest} {self : ρ × Shared Digest}
    {result : Poll (Option BridgeChecked)} {select : Select Digest} (context : String)
    (hpost : (relaySpec app init chains relay).Post app (init.checked relay).toNat (floor relay)
      RelayInv logsOf start self result)
    (hlogs : select.logs relay = logsOf self.1)
    (hinv : RelayInv self.1 self.2 → (∀ r, r ≠ relay → self.2.done r = start.done r) →
      Inv app init chains floor select self.2) :
    Post app init chains floor start (select, self.2) (withContext context result) := by
  obtain ⟨hstep, hpost⟩ := hpost
  refine ⟨Recorded.of_step hstep, fun hok => ?_⟩
  obtain ⟨hrelay, hreported⟩ := hpost (ne_error_of_withContext hok)
  refine ⟨hinv hrelay fun r hr => hstep.done_of_ne (by rwa [relay_relaySpec]), ?_⟩
  intro event hevent
  have hevent := hreported event (withContext_eq_ok.1 hevent)
  obtain rfl : event.relay = relay := by
    rw [hevent.relay_eq, relay_relaySpec]
  rw [← hlogs] at hevent
  exact hevent

/-- A poll of one relay keeps the invariants of the other two. -/
theorem pollTurn_spec {select : Select Digest} {shared : Shared Digest} {turn : Turn Digest}
    (hturn : turn.Honest chains) (h : Inv app init chains floor select shared) :
    Post app init chains floor shared (pollTurn app (select, shared) turn).1
      (pollTurn app (select, shared) turn).2 := by
  cases turn with
  | depositRelay script =>
    have hpost := DepositRelay.poll_spec hturn h.depositRelay
    apply @post_of_relay _ _ _ _ _ _ .depositRelay _ _ _ _ _ _ "deposit_relay" hpost rfl
    intro hrelay hdone
    exact ⟨hrelay, h.withdrawRelay.frame (hdone _ (by decide)),
      h.withdrawConfirm.frame (hdone _ (by decide))⟩
  | withdrawRelay script =>
    have hpost := WithdrawRelay.poll_spec hturn h.withdrawRelay
    apply @post_of_relay _ _ _ _ _ _ .withdrawRelay _ _ _ _ _ _ "withdraw_relay" hpost rfl
    intro hrelay hdone
    exact ⟨h.depositRelay.frame (hdone _ (by decide)), hrelay,
      h.withdrawConfirm.frame (hdone _ (by decide))⟩
  | withdrawConfirm script =>
    have hpost := WithdrawConfirm.poll_spec hturn h.withdrawConfirm
    apply @post_of_relay _ _ _ _ _ _ .withdrawConfirm _ _ _ _ _ _ "withdraw_confirm" hpost rfl
    intro hrelay hdone
    exact ⟨h.depositRelay.frame (hdone _ (by decide)),
      h.withdrawRelay.frame (hdone _ (by decide)), hrelay⟩

theorem poll_spec {select : Select Digest} {shared : Shared Digest} {script : List (Turn Digest)}
    (hscript : ∀ turn ∈ script, turn.Honest chains)
    (h : Inv app init chains floor select shared) :
    Post app init chains floor shared (poll app (select, shared) script).1
      (poll app (select, shared) script).2 := by
  refine run_sat (P := fun s => Recorded app init chains shared s.2 ∧
    Inv app init chains floor s.1 s.2) ?_ script (select, shared) ?_ ⟨Recorded.of_eq rfl, h⟩
  · exact fun s hs => ⟨hs.1, fun _ => ⟨hs.2, fun _ hevent => by cases hevent⟩⟩
  · intro turn hmem s hs
    have hpost := pollTurn_spec (hscript turn hmem) hs.2
    unfold body
    rcases hresult : pollTurn app s turn with ⟨s', e | _ | _ | event⟩
    all_goals
      rw [hresult] at hpost
      obtain ⟨hrecorded, hpost⟩ := hpost
      have hrecorded := hs.1.trans hrecorded
    · exact ⟨hrecorded, hpost⟩
    · exact ⟨hrecorded, (hpost (by simp)).1⟩
    · exact ⟨hrecorded, (hpost (by simp)).1⟩
    · exact ⟨hrecorded, hpost⟩

end Select

namespace BridgeEventStream

/-- The nodes report all logs. -/
def Answers.Honest (chains : Chains) (answers : Answers Digest) : Prop :=
  ∀ turn ∈ answers.bridge, turn.Honest chains

/-- The invariant of the stream. -/
structure Inv (app : App Digest) (init : Database) (chains : Chains) (floor : Relay → Nat)
    (stream : BridgeEventStream Digest) (shared : Shared Digest) : Prop where
  bridge : Select.Inv app init chains floor stream.bridge shared
  item : ∀ event, stream.state = .nextItem (some event) →
    Select.Reported app init chains floor stream.bridge shared event

/-- What a poll establishes. -/
def Post (app : App Digest) (init : Database) (chains : Chains) (floor : Relay → Nat)
    (start : Shared Digest) (self : BridgeEventStream Digest × Shared Digest)
    (result : Poll (Option BridgeChecked)) : Prop :=
  Recorded app init chains start self.2 ∧ ((∀ e, result ≠ .error e) →
    Inv app init chains floor self.1 self.2 ∧
    ∀ event, result = .ok (.ready (some event)) → self.1.state = .nextItem none ∧
      Select.Reported app init chains floor self.1.bridge self.2 event)

/-- All that `check_balances` writes. -/
theorem checkBalances_writes (self : BridgeEventStream Digest × Shared Digest)
    (answers : Answers Digest) :
    ∃ homeCheck foreignCheck homeBalance foreignBalance, (checkBalances self answers).1
      = ({ self.1 with homeBalanceCheck := homeCheck, foreignBalanceCheck := foreignCheck },
        { self.2 with homeBalance := homeBalance, foreignBalance := foreignBalance }) := by
  unfold checkBalances
  dsimp only
  split
  · exact ⟨_, _, _, _, rfl⟩
  · split
    · exact ⟨_, _, _, _, rfl⟩
    · split <;> exact ⟨_, _, _, _, rfl⟩

/-- All that `get_gas_prices` writes. -/
theorem getGasPrices_writes (self : BridgeEventStream Digest × Shared Digest)
    (answers : Answers Digest) :
    ∃ homeStream foreignStream homePrice foreignPrice, (getGasPrices self answers).1
      = ({ self.1 with homeGasStream := homeStream, foreignGasStream := foreignStream },
        { self.2 with homeGasPrice := homePrice, foreignGasPrice := foreignPrice }) := by
  unfold getGasPrices
  dsimp only
  split
  · exact ⟨_, _, _, _, rfl⟩
  · split <;> exact ⟨_, _, _, _, rfl⟩

/-- The checks leave the relays and the record alone. -/
theorem checkBalances_frame (self : BridgeEventStream Digest × Shared Digest)
    (answers : Answers Digest) :
    (checkBalances self answers).1.1.bridge = self.1.bridge ∧
      (checkBalances self answers).1.1.state = self.1.state ∧
      (checkBalances self answers).1.2.receipts = self.2.receipts := by
  obtain ⟨_, _, _, _, hwrites⟩ := checkBalances_writes self answers
  rw [hwrites]
  exact ⟨rfl, rfl, rfl⟩

theorem getGasPrices_frame (self : BridgeEventStream Digest × Shared Digest)
    (answers : Answers Digest) :
    (getGasPrices self answers).1.1.bridge = self.1.bridge ∧
      (getGasPrices self answers).1.1.state = self.1.state ∧
      (getGasPrices self answers).1.2.receipts = self.2.receipts := by
  obtain ⟨_, _, _, _, hwrites⟩ := getGasPrices_writes self answers
  rw [hwrites]
  exact ⟨rfl, rfl, rfl⟩

/-- What holds before every iteration of a poll. -/
def Kept (app : App Digest) (init : Database) (chains : Chains) (floor : Relay → Nat)
    (start : Shared Digest) (self : BridgeEventStream Digest × Shared Digest) : Prop :=
  Recorded app init chains start self.2 ∧ Inv app init chains floor self.1 self.2

variable {start : Shared Digest} {self : BridgeEventStream Digest × Shared Digest}

/-- A poll that returns no event leaves a stream without one. -/
theorem post_nothing (h : Kept app init chains floor start self)
    {result : Poll (Option BridgeChecked)} (hresult : ∀ event, result ≠ .ok (.ready (some event))) :
    Post app init chains floor start self result :=
  ⟨h.1, fun _ => ⟨h.2, fun event heq => absurd heq (hresult event)⟩⟩

theorem post_error (hrecorded : Recorded app init chains start self.2) (e : Error) :
    Post app init chains floor start self (.error e) :=
  ⟨hrecorded, fun hok => absurd rfl (hok e)⟩

/-- A component that leaves the relays, the state and the record alone. -/
theorem Kept.frame {self' : BridgeEventStream Digest × Shared Digest}
    (h : Kept app init chains floor start self)
    (hframe : self'.1.bridge = self.1.bridge ∧ self'.1.state = self.1.state ∧
      self'.2.receipts = self.2.receipts)
    (hstate : ∀ event, self.1.state ≠ .nextItem (some event)) :
    Kept app init chains floor start self' := by
  obtain ⟨hbridge, hstate', hreceipts⟩ := hframe
  refine ⟨h.1.trans (Recorded.of_eq hreceipts), ?_, ?_⟩
  · rw [hbridge]
    exact h.2.bridge.of_receipts hreceipts
  · intro event heq
    rw [hstate'] at heq
    exact absurd heq (hstate event)

/-- The poll of the selected relays. -/
theorem awaitEvent_sat {script : List (Select.Turn Digest)}
    (hscript : ∀ turn ∈ script, turn.Honest chains) (h : Kept app init chains floor start self)
    (hstate : ∀ event, self.1.state ≠ .nextItem (some event)) :
    (awaitEvent app self script).Sat (Kept app init chains floor start)
      (Post app init chains floor start) := by
  have hpost := Select.poll_spec hscript h.2.bridge
  unfold awaitEvent
  dsimp only
  generalize Select.poll app (self.1.bridge, self.2) script = result at hpost ⊢
  obtain ⟨⟨bridge, shared⟩, result⟩ := result
  obtain ⟨hrecorded, hpost⟩ := hpost
  have hrecorded' : Recorded app init chains start shared := h.1.trans hrecorded
  dsimp only at hpost ⊢
  refine tryStream_sat ?_ ?_ ?_ ?_
  · exact fun e _ => post_error hrecorded' e
  · intro hp
    refine post_nothing ⟨hrecorded', (hpost (by simp [hp])).1, ?_⟩ (by simp)
    exact fun event heq => absurd heq (hstate event)
  · intro hp
    refine post_nothing ⟨hrecorded', (hpost (by simp [hp])).1, ?_⟩ (by simp)
    exact fun event heq => absurd heq (hstate event)
  · intro event hp
    obtain ⟨hinv, hreported⟩ := hpost (by simp [hp])
    refine ⟨hrecorded', hinv, ?_⟩
    intro event' heq
    cases heq
    exact hreported event hp

theorem body_sat {answers : Answers Digest} (hanswers : answers.Honest chains)
    (h : Kept app init chains floor start self) :
    (body app self answers).Sat (Kept app init chains floor start)
      (Post app init chains floor start) := by
  unfold body
  cases hstate : self.1.state with
  | init =>
    have hkept := h.frame (checkBalances_frame self answers) (by simp [hstate])
    dsimp only
    rcases hresult : checkBalances self answers with ⟨⟨stream, shared⟩, e | _ | _⟩
    all_goals rw [hresult] at hkept
    · exact post_error hkept.1 e
    · exact post_nothing hkept (by simp)
    · exact ⟨hkept.1, hkept.2.bridge, fun _ heq => by cases heq⟩
  | wait =>
    dsimp only
    split
    · have hframe := getGasPrices_frame self answers
      have hkept := h.frame hframe (by simp [hstate])
      exact awaitEvent_sat hanswers hkept (by simp [hframe.2.1, hstate])
    · exact post_error h.1 _
  | nextItem item =>
    cases item with
    | none => exact ⟨h.1, h.2.bridge, fun _ heq => by cases heq⟩
    | some event =>
      refine ⟨h.1, fun _ => ⟨⟨h.2.bridge, fun _ heq => by cases heq⟩, ?_⟩⟩
      intro event' heq
      cases heq
      exact ⟨rfl, h.2.item event hstate⟩

/-- The specification of `BridgeEventStream::poll`. -/
theorem poll_spec {stream : BridgeEventStream Digest} {shared : Shared Digest}
    {script : List (Answers Digest)} (hscript : ∀ answers ∈ script, answers.Honest chains)
    (h : Inv app init chains floor stream shared) :
    Post app init chains floor shared (poll app (stream, shared) script).1
      (poll app (stream, shared) script).2 := by
  refine run_sat (P := Kept app init chains floor shared) ?_ script (stream, shared) ?_
    ⟨Recorded.of_eq rfl, h⟩
  · exact fun s hs => post_nothing hs (by simp)
  · exact fun answers hmem s hs => body_sat (hscript answers hmem) hs

/-! ## What an iteration polls -/

/-- An iteration asks the relays and the oracles: the stream is in the state `Wait`, and no
shutdown is requested. -/
def AsksRelays (self : BridgeEventStream Digest × Shared Digest) (answers : Answers Digest) :
    Prop :=
  self.1.state = .wait ∧ answers.running = true

instance (self : BridgeEventStream Digest × Shared Digest) (answers : Answers Digest) :
    Decidable (AsksRelays self answers) :=
  inferInstanceAs (Decidable (_ ∧ _))

/-- Two lists of answers are the same as far as an iteration reads them. -/
structure Answers.ReadAlike (self : BridgeEventStream Digest × Shared Digest)
    (answers answers' : Answers Digest) : Prop where
  running : answers'.running = answers.running
  balances : self.1.state = .init → answers'.homeBalance = answers.homeBalance ∧
    answers'.foreignBalance = answers.foreignBalance
  prices : AsksRelays self answers → answers'.homeGasPrice = answers.homeGasPrice ∧
    answers'.foreignGasPrice = answers.foreignGasPrice
  bridge : AsksRelays self answers → answers'.bridge = answers.bridge

/-- The balances are read in the state `Init` only, and the gas prices and the relays in the
state `Wait` only. -/
theorem body_congr {answers answers' : Answers Digest}
    (h : Answers.ReadAlike self answers answers') :
    body app self answers' = body app self answers := by
  obtain ⟨homeBalance, foreignBalance, running, homeGasPrice, foreignGasPrice, bridge⟩ := answers
  obtain ⟨homeBalance', foreignBalance', running', homeGasPrice', foreignGasPrice', bridge'⟩ :=
    answers'
  obtain ⟨hrunning, hbalances, hprices, hbridge⟩ := h
  dsimp only at hrunning hbalances hprices hbridge
  subst hrunning
  unfold body
  cases hstate : self.1.state with
  | init =>
    obtain ⟨rfl, rfl⟩ := hbalances hstate
    rfl
  | wait =>
    cases running' with
    | false => rfl
    | true =>
      obtain ⟨rfl, rfl⟩ := hprices ⟨hstate, rfl⟩
      obtain rfl := hbridge ⟨hstate, rfl⟩
      rfl
  | nextItem item => cases item <;> rfl

theorem body_of_asks {answers : Answers Digest} (h : AsksRelays self answers) :
    body app self answers = awaitEvent app (getGasPrices self answers).1 answers.bridge := by
  unfold body
  rw [h.1, h.2]
  rfl

/-- A part of the stream that the check of the balances leaves alone changes only when the
iteration asks the relays. -/
theorem body_keeps {α : Type} (part : BridgeEventStream Digest → α)
    (hstate : ∀ stream state, part { stream with state := state } = part stream)
    {answers : Answers Digest}
    (hchecks : self.1.state = .init → part (checkBalances self answers).1.1 = part self.1)
    (hasks : ¬ AsksRelays self answers) :
    part (body app self answers).state.1 = part self.1 := by
  unfold body
  cases hself : self.1.state with
  | init =>
    have hchecks := hchecks hself
    dsimp only
    generalize checkBalances self answers = checked at hchecks ⊢
    rcases checked with ⟨⟨stream, shared⟩, e | _ | _⟩
    · exact hchecks
    · exact hchecks
    · exact (hstate stream .wait).trans hchecks
  | wait =>
    cases hrunning : answers.running with
    | false => rfl
    | true => exact absurd ⟨hself, hrunning⟩ hasks
  | nextItem item =>
    cases item with
    | none => exact hstate self.1 .init
    | some item => exact hstate self.1 (.nextItem none)

/-- Apart from the relays only the state of the stream changes. -/
theorem awaitEvent_state (app : App Digest) (self : BridgeEventStream Digest × Shared Digest)
    (script : List (Select.Turn Digest)) :
    ∃ state, (awaitEvent app self script).state.1 = { self.1 with
      bridge := (Select.poll app (self.1.bridge, self.2) script).1.1, state := state } := by
  unfold awaitEvent
  refine @Flow.Sat.state _ _ (fun s : BridgeEventStream Digest × Shared Digest =>
    ∃ state, s.1 = { self.1 with
      bridge := (Select.poll app (self.1.bridge, self.2) script).1.1, state := state }) _ ?_
  exact tryStream_sat (fun _ _ => ⟨self.1.state, rfl⟩) (fun _ => ⟨self.1.state, rfl⟩)
    (fun _ => ⟨self.1.state, rfl⟩) fun item _ => ⟨.nextItem (some item), rfl⟩

/-- The relays are what a poll of them leaves, when the iteration asks them, and else they are
as they were. -/
theorem body_bridge (answers : Answers Digest) :
    (body app self answers).state.1.bridge
      = if AsksRelays self answers then
          (Select.poll app (self.1.bridge, (getGasPrices self answers).1.2) answers.bridge).1.1
        else self.1.bridge := by
  by_cases hasks : AsksRelays self answers
  · obtain ⟨state, hstate⟩ := awaitEvent_state app (getGasPrices self answers).1 answers.bridge
    rw [if_pos hasks, body_of_asks hasks, hstate, ← (getGasPrices_frame self answers).1]
  · rw [if_neg hasks]
    exact body_keeps BridgeEventStream.bridge (fun _ _ => rfl)
      (fun _ => (checkBalances_frame self answers).1) hasks

end BridgeEventStream

end PoaBridge
