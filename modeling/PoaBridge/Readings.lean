import PoaBridge.EventStream

/-!
# What the relays leave alone

The balances and the gas prices of a process are written by the checks of
`BridgeEventStream`, between the polls of the relays.  The relays read them and write
the nonces only: no iteration of a relay changes the `readings`.
-/

namespace PoaBridge

open PollLoop

variable {Digest : Type}

/-- The balances and the gas prices of a process. -/
structure Readings where
  homeBalance : Option U256
  foreignBalance : Option U256
  homeGasPrice : UInt64
  foreignGasPrice : UInt64
deriving DecidableEq, Repr

def Shared.readings (self : Shared Digest) : Readings where
  homeBalance := self.homeBalance
  foreignBalance := self.foreignBalance
  homeGasPrice := self.homeGasPrice
  foreignGasPrice := self.foreignGasPrice

@[simp] theorem Shared.readings_setNonce (self : Shared Digest) (side : Side) (nonce : U256) :
    (self.setNonce side nonce).readings = self.readings := by
  cases side <;> rfl

/-- The iteration leaves the readings as they are. -/
def KeepsReadings {ρ α : Type} (readings : Readings) (flow : Flow (ρ × Shared Digest) (Poll α)) :
    Prop :=
  flow.Sat (fun s => s.2.readings = readings) fun s _ => s.2.readings = readings

/-- When no iteration changes the readings, no call does. -/
theorem run_readings {ρ ι α : Type}
    {body : ρ × Shared Digest → ι → Flow (ρ × Shared Digest) (Poll α)}
    (hbody : ∀ s i, KeepsReadings s.2.readings (body s i)) (s : ρ × Shared Digest)
    (script : List ι) : (run body (.ok .notReady) s script).1.2.readings = s.2.readings := by
  refine @run_sat _ _ _ body (.ok .notReady) (fun t => t.2.readings = s.2.readings)
    (fun t _ => t.2.readings = s.2.readings) (fun _ ht => ht) script s (fun i _ t ht => ?_) rfl
  rw [← ht]
  exact hbody t i

theorem pollJob_readings (wallet : Wallet Digest) (relay : Relay) (side : Side) (job : Job)
    (future : NonceCheck) (shared : Shared Digest) (script : List (NonceCheck.Answers Digest)) :
    (pollJob wallet relay side job future shared script).1.2.readings = shared.readings := by
  unfold pollJob
  dsimp only
  generalize NonceCheck.poll wallet (future, shared.nonce side) script = polled
  obtain ⟨⟨future', nonce⟩, result⟩ := polled
  dsimp only
  split
  · exact shared.readings_setNonce side nonce
  · exact shared.readings_setNonce side nonce

section Loops

variable {ρ : Type} {context : String} {shared : Shared Digest}

/-- Waiting for logs does not change what is shared. -/
theorem awaitItem_shared {logs : LogStream} {script : List LogStream.Answers}
    {setLogs : LogStream → ρ}
    {next : LogStreamItem → ρ → Flow (ρ × Shared Digest) (Poll (Option BridgeChecked))}
    {P : ρ × Shared Digest → Prop}
    (hnext : ∀ item relay, (next item relay).Sat P fun s _ => s.2 = shared) :
    (awaitItem context logs script shared setLogs next).Sat P fun s _ => s.2 = shared := by
  unfold awaitItem
  dsimp only
  refine tryStream_sat (fun _ _ => rfl) (fun _ => rfl) (fun _ => rfl) fun item _ => ?_
  exact hnext item _

theorem awaitItem_readings {logs : LogStream} {script : List LogStream.Answers}
    {setLogs : LogStream → ρ}
    {next : LogStreamItem → ρ → Flow (ρ × Shared Digest) (Poll (Option BridgeChecked))}
    (hnext : ∀ item relay, (next item relay).Sat (fun s => s.2 = shared) fun s _ => s.2 = shared) :
    KeepsReadings shared.readings (awaitItem context logs script shared setLogs next) :=
  (awaitItem_shared hnext).imp (fun s hs => by rw [hs]) fun s _ hs => by rw [hs]

/-- A batch does not change the readings. -/
theorem awaitBatch_readings {app : App Digest} {relay : Relay} {side : Side}
    {future : Batch Digest} {script : Batch.Script Digest} {setFuture : Batch Digest → ρ}
    {next : ρ} :
    KeepsReadings shared.readings
      (awaitBatch app relay side context future script shared setFuture next) := by
  have hbatch := @Collect.poll_world _ _ _ _ _ _
    (fun w : Shared Digest => w.readings = shared.readings)
    (pollJob app.wallet relay side)
    (fun job future w answers hw => (pollJob_readings ..).trans hw) future shared rfl script
  unfold awaitBatch Batch.poll
  dsimp only
  generalize Collect.poll (pollJob app.wallet relay side) (future, shared) script = polled
    at hbatch ⊢
  obtain ⟨⟨future', shared'⟩, result⟩ := polled
  exact tryReady_sat (fun _ _ => hbatch) (fun _ => hbatch) fun _ _ => hbatch

end Loops

/-! ## The relays -/

variable (app : App Digest)

theorem DepositRelay.body_readings (self : DepositRelay Digest × Shared Digest)
    (answers : Answers Digest) : KeepsReadings self.2.readings (body app self answers) := by
  unfold body
  dsimp only
  cases self.1.state with
  | wait =>
    dsimp only
    split
    · rfl
    · refine awaitItem_readings fun item relay => ?_
      split <;> rfl
  | relayDeposits future block => exact awaitBatch_readings
  | yield block => cases block <;> rfl

theorem WithdrawConfirm.body_readings (self : WithdrawConfirm Digest × Shared Digest)
    (answers : Answers Digest) : KeepsReadings self.2.readings (body app self answers) := by
  unfold body
  dsimp only
  cases self.1.state with
  | wait =>
    dsimp only
    split
    · rfl
    · refine awaitItem_readings fun item relay => ?_
      split <;> rfl
  | confirmWithdraws future block => exact awaitBatch_readings
  | yield block => cases block <;> rfl

theorem WithdrawRelay.body_readings (self : WithdrawRelay Digest × Shared Digest)
    (answers : Answers Digest) : KeepsReadings self.2.readings (body app self answers) := by
  unfold body
  dsimp only
  cases self.1.state with
  | wait =>
    refine awaitItem_readings fun item relay => ?_
    split <;> rfl
  | fetchMessagesSignatures assignments future block =>
    dsimp only
    unfold awaitFetch
    split
    · rfl
    · refine tryReady_sat (fun _ _ => rfl) (fun _ => rfl) fun raws _ => ?_
      dsimp only
      split <;> rfl
  | relayWithdraws future block => exact awaitBatch_readings
  | yield block => cases block <;> rfl

theorem Select.pollTurn_readings (self : Select Digest × Shared Digest) (turn : Turn Digest) :
    (pollTurn app self turn).1.2.readings = self.2.readings := by
  cases turn with
  | depositRelay script =>
    exact run_readings (DepositRelay.body_readings app) (self.1.depositRelay, self.2) script
  | withdrawRelay script =>
    exact run_readings (WithdrawRelay.body_readings app) (self.1.withdrawRelay, self.2) script
  | withdrawConfirm script =>
    exact run_readings (WithdrawConfirm.body_readings app) (self.1.withdrawConfirm, self.2) script

theorem Select.body_readings (self : Select Digest × Shared Digest) (turn : Turn Digest) :
    KeepsReadings self.2.readings (body app self turn) := by
  have hturn := pollTurn_readings app self turn
  unfold body
  generalize pollTurn app self turn = polled at hturn ⊢
  rcases polled with ⟨self', _ | _ | _ | _⟩ <;> exact hturn

theorem Select.poll_readings (self : Select Digest × Shared Digest)
    (script : List (Turn Digest)) : (poll app self script).1.2.readings = self.2.readings :=
  run_readings (body_readings app) self script

end PoaBridge
