import PoaBridge.Bridge
import PoaBridge.Lib.Traces
import PoaBridge.Readings

/-!
# The balance of the foreign account

The deposit relay and the confirmation of withdrawals send from one account on
foreign.  Each of them checks the cost of a batch against the balance that the
stream has last received, before it admits the batch.

The observations of a run are the requests for the balance, the values that
come into use, and the batches that are admitted.  `observations_affordable` says
what the code guarantees of them: the cost of every batch is at most the value
in use.  It does not take the batches into account that were admitted since the
node has measured the value, so two batches can cost more than there is.

`observed_eq` says that the observations are those of what an iteration polls, which
`body_bridge` and `body_foreignBalanceCheck` say of the stream itself.

`covered_iff_affords` says exactly when a sequence of observations is covered, one
batch at a time.  `spending_covered_of_one_batch` is a case in terms of the batches
only: at most one batch that costs something is admitted after the balance was
refreshed, and before the next request for it is sent.
-/

namespace PoaBridge

open PollLoop

variable {Digest : Type}

/-! ## What is observed -/

/-- What happens to the foreign account. -/
inductive Observation where
  /-- The balance is requested.  The node measures it at some moment from now
  on. -/
  | request
  /-- A balance comes into use. -/
  | refreshed (balance : U256)
  /-- A relay admits a batch of transactions. -/
  | admitted (cost : Nat)
deriving DecidableEq, Repr

/-- The sum of `gas * gas_price` over the transactions of a batch. -/
def Batch.cost (self : Batch Digest) : Nat :=
  (self.jobs.map fun job => job.future.transaction.gas.toNat
    * job.future.transaction.gasPrice.toNat).sum

/-- The batch that an iteration admits: a relay that waited goes on with it. -/
def observedBatch {ρ : Type} (waits : ρ → Bool) (batch : ρ → Option (Batch Digest)) (relay : ρ) :
    Flow (ρ × Shared Digest) (Poll (Option BridgeChecked)) → List Observation
  | .next (relay', _) =>
    if waits relay then ((batch relay').map fun future => .admitted future.cost).toList else []
  | .ret _ _ => []

namespace DepositRelay

def waits (self : DepositRelay Digest) : Bool :=
  match self.state with
  | .wait => true
  | _ => false

/-- The batch in flight. -/
def batch (self : DepositRelay Digest) : Option (Batch Digest) :=
  match self.state with
  | .relayDeposits future _ => some future
  | _ => none

def observed (app : App Digest) (self : DepositRelay Digest × Shared Digest)
    (answers : Answers Digest) : List Observation :=
  observedBatch waits batch self.1 (body app self answers)

end DepositRelay

namespace WithdrawConfirm

def waits (self : WithdrawConfirm Digest) : Bool :=
  match self.state with
  | .wait => true
  | _ => false

@[inherit_doc DepositRelay.batch]
def batch (self : WithdrawConfirm Digest) : Option (Batch Digest) :=
  match self.state with
  | .confirmWithdraws future _ => some future
  | _ => none

def observed (app : App Digest) (self : WithdrawConfirm Digest × Shared Digest)
    (answers : Answers Digest) : List Observation :=
  observedBatch waits batch self.1 (body app self answers)

end WithdrawConfirm

/-- The turn of a relay.  The relay of withdrawals sends on home. -/
def Select.observed (app : App Digest) (self : Select Digest × Shared Digest) :
    Turn Digest → List Observation
  | .depositRelay script =>
    trace (DepositRelay.body app) (DepositRelay.observed app) (self.1.depositRelay, self.2) script
  | .withdrawRelay _ => []
  | .withdrawConfirm script =>
    trace (WithdrawConfirm.body app) (WithdrawConfirm.observed app)
      (self.1.withdrawConfirm, self.2) script

/-- The request is sent when the check leaves the state `Wait`. -/
def BalanceCheck.observed (self : BalanceCheck) (_ : Poll U256) : List Observation :=
  match self.state with
  | .wait => [.request]
  | _ => []

/-- The iterations that show a request are those that come to the state with one in flight. -/
theorem BalanceCheck.observed_eq (self : BalanceCheck) (balance : Poll U256) :
    observed self balance
      = if self.state ≠ .balanceRequest ∧ (body self balance).state.state = .balanceRequest then
          [.request]
        else [] := by
  obtain ⟨state⟩ := self
  cases state with
  | wait => rfl
  | balanceRequest => rfl
  | yield balance => cases balance <;> rfl

namespace BridgeEventStream

/-- The foreign part of `check_balances`, which follows the home part when that
one does not return. -/
def observedBalance (self : BridgeEventStream Digest) (answers : Answers Digest) :
    List Observation :=
  match tryBridge (self.homeBalanceCheck.poll answers.homeBalance).2 with
  | .error _ => []
  | .ok _ =>
    trace BalanceCheck.body BalanceCheck.observed self.foreignBalanceCheck answers.foreignBalance
      ++ match tryBridge (self.foreignBalanceCheck.poll answers.foreignBalance).2 with
        | .ok (some balance) => [.refreshed balance]
        | _ => []

def observed (app : App Digest) (self : BridgeEventStream Digest × Shared Digest)
    (answers : Answers Digest) : List Observation :=
  match self.1.state with
  | .init => observedBalance self.1 answers
  | .wait =>
    if answers.running then
      let (self, _) := getGasPrices self answers
      trace (Select.body app) (Select.observed app) (self.1.bridge, self.2) answers.bridge
    else []
  | .nextItem _ => []

/-- The observations of a run, poll by poll. -/
def observations (app : App Digest) :
    BridgeEventStream Digest × Shared Digest → List (List (Answers Digest)) → List Observation
  | _, [] => []
  | self, script :: scripts =>
    trace (body app) (observed app) self script
      ++ observations app (poll app self script).1 scripts

end BridgeEventStream

/-! ## What the code guarantees -/

namespace Observation

/-- The balance in use. -/
def inUse (balance : Option U256) : Observation → Option U256
  | .refreshed value => some value
  | _ => balance

/-- A batch that is admitted costs at most the balance in use. -/
def Affordable (balance : Option U256) : Observation → Prop
  | .admitted cost => ∃ value, balance = some value ∧ cost ≤ value.toNat
  | _ => True

end Observation

open Observation

theorem Batch.cost_sendAll_eq_sum (account : Address) (chainId : UInt64)
    (transactions : List (Log × Transaction)) :
    Batch.cost (sendAll account chainId transactions : Batch Digest)
      = (transactions.map fun p => p.2.gas.toNat * p.2.gasPrice.toNat).sum := by
  simp [Batch.cost, sendAll, Function.comp_def, sendTransactionWithNonce]

/-- A gas limit or a gas price of the configuration, as a `U256`. -/
theorem toNat_ofNat_toNat (n : UInt64) : (BitVec.ofNat 256 n.toNat).toNat = n.toNat := by
  have hlt : n.toNat < 2 ^ 64 := n.toNat_lt
  rw [BitVec.toNat_ofNat, Nat.mod_eq_of_lt (hlt.trans (by decide))]

theorem Batch.cost_sendAll {account : Address} {chainId gas gasPrice : UInt64}
    {transactions : List (Log × Transaction)}
    (h : ∀ p ∈ transactions, p.2.gas = BitVec.ofNat 256 gas.toNat ∧
      p.2.gasPrice = BitVec.ofNat 256 gasPrice.toNat) :
    Batch.cost (sendAll account chainId transactions : Batch Digest)
      = balanceRequired gas gasPrice transactions.length := by
  have hconst : (transactions.map fun p => p.2.gas.toNat * p.2.gasPrice.toNat)
      = List.replicate transactions.length (gas.toNat * gasPrice.toNat) := by
    refine List.eq_replicate_iff.2 ⟨List.length_map .., fun c hc => ?_⟩
    obtain ⟨p, hp, rfl⟩ := List.mem_map.1 hc
    rw [(h p hp).1, (h p hp).2, toNat_ofNat_toNat, toNat_ofNat_toNat]
  rw [cost_sendAll_eq_sum, hconst, List.sum_replicate_nat, balanceRequired, Nat.mul_comm]

/-- A relay that compares the cost of its transactions with a balance has
enough for the batch. -/
theorem Batch.cost_sendAll_le {α : Type} {account : Address} {chainId gas gasPrice : UInt64}
    {xs : List α} {f : α → Except Error (Log × Transaction)}
    {transactions : List (Log × Transaction)} {balance : Nat} (h : xs.mapM f = .ok transactions)
    (hf : ∀ x p, f x = .ok p → p.2.gas = BitVec.ofNat 256 gas.toNat ∧
      p.2.gasPrice = BitVec.ofNat 256 gasPrice.toNat)
    (henough : ¬ balance < balanceRequired gas gasPrice xs.length) :
    Batch.cost (sendAll account chainId transactions : Batch Digest) ≤ balance := by
  have hlength := (Results.forall₂_of_mapM_eq_ok h).length_eq
  rw [Batch.cost_sendAll, ← hlength]
  · exact Nat.not_lt.1 henough
  · intro p hp
    obtain ⟨x, -, hx⟩ := Results.exists_mem_of_mapM_eq_ok h hp
    exact hf x p hx

/-- The observations of a relay are batches that it can pay for, one by one,
and it leaves the balance alone. -/
theorem simulates_of_affordable {ρ ι : Type}
    {body : ρ × Shared Digest → ι → Flow (ρ × Shared Digest) (Poll (Option BridgeChecked))}
    {observed : ρ × Shared Digest → ι → List Observation}
    (hobserved : ∀ s i, ∀ o ∈ observed s i, ∃ cost balance, o = .admitted cost ∧
      s.2.foreignBalance = some balance ∧ cost ≤ balance.toNat)
    (hbody : ∀ s i, KeepsReadings s.2.readings (body s i)) :
    Simulates body observed (fun s => s.2.foreignBalance) inUse Affordable := by
  have hobservations : ∀ (balance : Option U256) (t : List Observation),
      (∀ o ∈ t, ∃ cost value, o = .admitted cost ∧ balance = some value ∧ cost ≤ value.toNat) →
      Runs.Along inUse Affordable balance t ∧ t.foldl inUse balance = balance := by
    intro balance t ht
    induction t with
    | nil => exact ⟨trivial, rfl⟩
    | cons o t ih =>
      obtain ⟨⟨cost, value, rfl, hvalue, hcost⟩, hrest⟩ := List.forall_mem_cons.1 ht
      exact ⟨⟨⟨value, hvalue, hcost⟩, (ih hrest).1⟩, (ih hrest).2⟩
  refine ⟨fun s i => (hobservations _ _ (hobserved s i)).1, fun s i => ?_⟩
  rw [(hobservations _ _ (hobserved s i)).2]
  exact (hbody s i).imp (fun _ h => congrArg Readings.foreignBalance h)
    fun _ _ h => congrArg Readings.foreignBalance h

/-- An iteration of a relay that waits: it checks what it admits. -/
def ChecksBalance {ρ : Type} (batch : ρ → Option (Batch Digest)) (shared : Shared Digest)
    (flow : Flow (ρ × Shared Digest) (Poll (Option BridgeChecked))) : Prop :=
  flow.Sat
    (fun s => s.2 = shared ∧ ∃ balance future, shared.foreignBalance = some balance ∧
      batch s.1 = some future ∧ Batch.cost future ≤ balance.toNat)
    (fun s _ => s.2 = shared)

theorem simulates_of_checksBalance {ρ ι : Type} {waits : ρ → Bool}
    {batch : ρ → Option (Batch Digest)}
    {body : ρ × Shared Digest → ι → Flow (ρ × Shared Digest) (Poll (Option BridgeChecked))}
    (hwait : ∀ relay shared i, waits relay = true →
      ChecksBalance batch shared (body (relay, shared) i))
    (hbody : ∀ s i, KeepsReadings s.2.readings (body s i)) :
    Simulates body (fun s i => observedBatch waits batch s.1 (body s i))
      (fun s => s.2.foreignBalance) inUse Affordable := by
  refine simulates_of_affordable ?_ hbody
  rintro ⟨relay, shared⟩ i o ho
  have hchecks := hwait relay shared i
  unfold observedBatch at ho
  split at ho
  · rename_i relay' shared' hflow
    split at ho
    · rename_i hwaits
      have hchecks := hchecks hwaits
      rw [ChecksBalance, hflow, Flow.sat_next] at hchecks
      obtain ⟨-, balance, future, hbalance, hfuture, hcost⟩ := hchecks
      rw [hfuture] at ho
      exact ⟨_, balance, List.mem_singleton.1 ho, hbalance, hcost⟩
    · cases ho
  · cases ho

variable (app : App Digest)

namespace DepositRelay

/-- What the relay admits, it has checked against the balance. -/
theorem body_wait {relay : DepositRelay Digest} (shared : Shared Digest)
    (answers : Answers Digest) (h : relay.state = .wait) :
    ChecksBalance batch shared (body app (relay, shared) answers) := by
  unfold body
  dsimp only
  rw [h]
  dsimp only
  split
  · rfl
  · rename_i balance hbalance
    refine awaitItem_shared fun item relay' => ?_
    split
    · rfl
    · rename_i deposits hdeposits
      refine ⟨rfl, balance, _, hbalance, rfl, ?_⟩
      unfold transactions at hdeposits
      split at hdeposits
      · cases hdeposits
      · rename_i henough
        refine Batch.cost_sendAll_le hdeposits (fun x p hp => ?_) henough
        obtain ⟨payload, -, hp⟩ := Results.exists_of_bind_eq_ok hp
        cases hp
        exact ⟨rfl, rfl⟩

theorem simulates : Simulates (body app) (observed app) (fun s => s.2.foreignBalance) inUse
    Affordable := by
  refine simulates_of_checksBalance (fun relay shared answers hwaits => ?_) (body_readings app)
  cases hstate : relay.state with
  | wait => exact body_wait app shared answers hstate
  | relayDeposits future block => simp [waits, hstate] at hwaits
  | yield block => simp [waits, hstate] at hwaits

end DepositRelay

namespace WithdrawConfirm

@[inherit_doc DepositRelay.body_wait]
theorem body_wait {relay : WithdrawConfirm Digest} (shared : Shared Digest)
    (answers : Answers Digest) (h : relay.state = .wait) :
    ChecksBalance batch shared (body app (relay, shared) answers) := by
  unfold body
  dsimp only
  rw [h]
  dsimp only
  split
  · rfl
  · rename_i balance hbalance
    refine awaitItem_shared fun item relay' => ?_
    split
    · rfl
    · rename_i result hresult
      refine ⟨rfl, balance, _, hbalance, rfl, ?_⟩
      obtain ⟨messages, -, hresult⟩ := Results.exists_of_bind_eq_ok hresult
      obtain ⟨signatures, -, hresult⟩ := Results.exists_of_bind_eq_ok hresult
      split at hresult
      · cases hresult
      · rename_i henough
        refine Batch.cost_sendAll_le hresult (fun x p hp => ?_) henough
        obtain ⟨payload, -, hp⟩ := Results.exists_of_bind_eq_ok hp
        cases hp
        exact ⟨rfl, rfl⟩

theorem simulates : Simulates (body app) (observed app) (fun s => s.2.foreignBalance) inUse
    Affordable := by
  refine simulates_of_checksBalance (fun relay shared answers hwaits => ?_) (body_readings app)
  cases hstate : relay.state with
  | wait => exact body_wait app shared answers hstate
  | confirmWithdraws future block => simp [waits, hstate] at hwaits
  | yield block => simp [waits, hstate] at hwaits

end WithdrawConfirm

/-- The relay of withdrawals leaves the foreign balance alone. -/
theorem WithdrawRelay.simulates : Simulates (body app) (fun _ _ => [])
    (fun s => s.2.foreignBalance) inUse Affordable :=
  simulates_of_affordable (fun _ _ o ho => by cases ho) (body_readings app)

/-- One relay is polled. -/
theorem Select.pollTurn_follows (self : Select Digest × Shared Digest) (turn : Turn Digest) :
    Runs.Along inUse Affordable self.2.foreignBalance (observed app self turn) ∧
      (pollTurn app self turn).1.2.foreignBalance
        = (observed app self turn).foldl inUse self.2.foreignBalance := by
  cases turn with
  | depositRelay script =>
    exact (DepositRelay.simulates app).call (.ok .notReady) script (self.1.depositRelay, self.2)
  | withdrawRelay script =>
    have hcall := (WithdrawRelay.simulates app).call (.ok .notReady) script
      (self.1.withdrawRelay, self.2)
    have hnothing : trace (WithdrawRelay.body app) (fun _ _ => ([] : List Observation))
        (self.1.withdrawRelay, self.2) script = [] := by
      refine List.eq_nil_iff_forall_not_mem.2 fun o ho => ?_
      obtain ⟨_, _, ho⟩ := exists_of_mem_trace ho
      cases ho
    rw [hnothing] at hcall
    exact hcall
  | withdrawConfirm script =>
    exact (WithdrawConfirm.simulates app).call (.ok .notReady) script
      (self.1.withdrawConfirm, self.2)

theorem Select.simulates : Simulates (body app) (observed app) (fun s => s.2.foreignBalance)
    inUse Affordable := by
  refine ⟨fun s turn => (pollTurn_follows app s turn).1, fun s turn => ?_⟩
  have hfollows := (pollTurn_follows app s turn).2
  unfold body
  generalize pollTurn app s turn = polled at hfollows ⊢
  rcases polled with ⟨s', _ | _ | _ | _⟩ <;> exact hfollows

namespace BridgeEventStream

/-- The check of the balance sends requests and does nothing else. -/
theorem inUse_requests {check : BalanceCheck} {script : List (Poll U256)}
    (balance : Option U256) :
    Runs.Along inUse Affordable balance
        (trace BalanceCheck.body BalanceCheck.observed check script) ∧
      (trace BalanceCheck.body BalanceCheck.observed check script).foldl inUse balance
        = balance := by
  have hrequests : ∀ o ∈ trace BalanceCheck.body BalanceCheck.observed check script,
      o = .request := by
    intro o ho
    obtain ⟨check', _, ho⟩ := exists_of_mem_trace ho
    unfold BalanceCheck.observed at ho
    split at ho
    · exact List.mem_singleton.1 ho
    · cases ho
  generalize trace BalanceCheck.body BalanceCheck.observed check script = requests at hrequests ⊢
  induction requests with
  | nil => exact ⟨trivial, rfl⟩
  | cons o requests ih =>
    obtain ⟨rfl, hrest⟩ := List.forall_mem_cons.1 hrequests
    exact ⟨⟨trivial, (ih hrest).1⟩, (ih hrest).2⟩

/-- A balance that the check returns comes into use. -/
theorem checkBalances_follows (self : BridgeEventStream Digest × Shared Digest)
    (answers : Answers Digest) :
    Runs.Along inUse Affordable self.2.foreignBalance (observedBalance self.1 answers) ∧
      (checkBalances self answers).1.2.foreignBalance
        = (observedBalance self.1 answers).foldl inUse self.2.foreignBalance := by
  obtain ⟨stream, shared⟩ := self
  obtain ⟨hallowed, hrequests⟩ := @inUse_requests stream.foreignBalanceCheck
    answers.foreignBalance shared.foreignBalance
  unfold checkBalances observedBalance
  dsimp only
  cases tryBridge (stream.homeBalanceCheck.poll answers.homeBalance).2 with
  | error result => exact ⟨trivial, rfl⟩
  | ok homeBalance =>
    dsimp only
    rw [Runs.along_append, List.foldl_append, hrequests]
    cases tryBridge (stream.foreignBalanceCheck.poll answers.foreignBalance).2 with
    | error result => exact ⟨⟨hallowed, trivial⟩, rfl⟩
    | ok balance =>
      refine ⟨⟨hallowed, by cases balance <;> simp [Runs.Along, Affordable]⟩, ?_⟩
      dsimp only
      rw [apply_ite (fun r : (BridgeEventStream Digest × Shared Digest) × _ =>
        r.1.2.foreignBalance), ite_self]
      cases balance <;> rfl

theorem getGasPrices_foreignBalance (self : BridgeEventStream Digest × Shared Digest)
    (answers : Answers Digest) :
    (getGasPrices self answers).1.2.foreignBalance = self.2.foreignBalance := by
  obtain ⟨_, _, _, _, hwrites⟩ := getGasPrices_writes self answers
  rw [hwrites]

theorem simulates : Simulates (body app) (observed app) (fun s => s.2.foreignBalance) inUse
    Affordable := by
  refine ⟨fun s answers => ?_, fun s answers => ?_⟩
  · unfold observed
    split
    · exact (checkBalances_follows s answers).1
    · split
      · dsimp only
        rw [← getGasPrices_foreignBalance s answers]
        exact ((Select.simulates app).call (.ok .notReady) answers.bridge
          ((getGasPrices s answers).1.1.bridge, (getGasPrices s answers).1.2)).1
      · trivial
    · trivial
  · unfold body observed
    cases s.1.state with
    | init =>
      have hfollows := (checkBalances_follows s answers).2
      dsimp only
      generalize checkBalances s answers = checked at hfollows ⊢
      rcases checked with ⟨⟨stream, shared⟩, _ | _ | _⟩ <;> exact hfollows
    | wait =>
      dsimp only
      split
      · have hcall := ((Select.simulates app).call (.ok .notReady) answers.bridge
          ((getGasPrices s answers).1.1.bridge, (getGasPrices s answers).1.2)).2
        rw [getGasPrices_foreignBalance s answers] at hcall
        unfold awaitEvent Select.poll
        exact tryStream_sat (fun _ _ => hcall) (fun _ => hcall) (fun _ => hcall)
          fun _ _ => hcall
      · rfl
    | nextItem item => cases item <;> rfl

/-! ### What is observed is what is polled -/

/-- The check of foreign is polled: the one of home does not return early. -/
def ChecksForeign (self : BridgeEventStream Digest × Shared Digest) (answers : Answers Digest) :
    Prop :=
  self.1.state = .init ∧
    (tryBridge (self.1.homeBalanceCheck.poll answers.homeBalance).2).isOk = true

instance (self : BridgeEventStream Digest × Shared Digest) (answers : Answers Digest) :
    Decidable (ChecksForeign self answers) :=
  inferInstanceAs (Decidable (_ ∧ _))

/-- Observations of the balance are those of a poll of the check, and observations of the
relays are those of a poll of them. -/
theorem observed_eq (self : BridgeEventStream Digest × Shared Digest) (answers : Answers Digest) :
    observed app self answers
      = if ChecksForeign self answers then observedBalance self.1 answers
        else if AsksRelays self answers then
          trace (Select.body app) (Select.observed app)
            (self.1.bridge, (getGasPrices self answers).1.2) answers.bridge
        else [] := by
  by_cases hforeign : ChecksForeign self answers
  · rw [if_pos hforeign, observed, hforeign.1]
  rw [if_neg hforeign]
  by_cases hasks : AsksRelays self answers
  · rw [if_pos hasks, observed, hasks.1, hasks.2, ← (getGasPrices_frame self answers).1]
    rfl
  rw [if_neg hasks, observed]
  cases hstate : self.1.state with
  | init =>
    dsimp only
    unfold observedBalance
    cases hresult : tryBridge (self.1.homeBalanceCheck.poll answers.homeBalance).2 with
    | error result => rfl
    | ok balance => exact absurd ⟨hstate, by rw [hresult]; rfl⟩ hforeign
  | wait => exact if_neg fun hrunning => hasks ⟨hstate, hrunning⟩
  | nextItem item => rfl

theorem checkBalances_foreignBalanceCheck (self : BridgeEventStream Digest × Shared Digest)
    (answers : Answers Digest) :
    (checkBalances self answers).1.1.foreignBalanceCheck
      = if (tryBridge (self.1.homeBalanceCheck.poll answers.homeBalance).2).isOk = true then
          (self.1.foreignBalanceCheck.poll answers.foreignBalance).1
        else self.1.foreignBalanceCheck := by
  obtain ⟨stream, shared⟩ := self
  unfold checkBalances
  dsimp only
  cases tryBridge (stream.homeBalanceCheck.poll answers.homeBalance).2 with
  | error result => rfl
  | ok homeBalance =>
    dsimp only
    cases tryBridge (stream.foreignBalanceCheck.poll answers.foreignBalance).2 with
    | error result => rfl
    | ok balance =>
      dsimp only
      split <;> rfl

/-- The check of foreign is what a poll leaves in the iterations of `ChecksForeign`, and else
it is as it was.  `body_bridge` says the same of the relays. -/
theorem body_foreignBalanceCheck (self : BridgeEventStream Digest × Shared Digest)
    (answers : Answers Digest) :
    (body app self answers).state.1.foreignBalanceCheck
      = if ChecksForeign self answers then
          (self.1.foreignBalanceCheck.poll answers.foreignBalance).1
        else self.1.foreignBalanceCheck := by
  have hchecks := checkBalances_foreignBalanceCheck self answers
  by_cases hasks : AsksRelays self answers
  · have hforeign : ¬ ChecksForeign self answers := by
      rintro ⟨hinit, -⟩
      cases hinit.symm.trans hasks.1
    obtain ⟨state, hstate⟩ := awaitEvent_state app (getGasPrices self answers).1 answers.bridge
    obtain ⟨_, _, _, _, hwrites⟩ := getGasPrices_writes self answers
    rw [body_of_asks hasks, if_neg hforeign, hstate, hwrites]
  · by_cases hforeign : ChecksForeign self answers
    · rw [if_pos hforeign]
      rw [if_pos hforeign.2] at hchecks
      unfold body
      rw [hforeign.1]
      dsimp only
      generalize checkBalances self answers = checked at hchecks ⊢
      rcases checked with ⟨⟨stream, shared⟩, e | _ | _⟩ <;> exact hchecks
    · rw [if_neg hforeign]
      refine body_keeps BridgeEventStream.foreignBalanceCheck (fun _ _ => rfl)
        (fun hinit => ?_) hasks
      rw [hchecks, if_neg fun hhome => hforeign ⟨hinit, hhome⟩]

/-- Every batch that is admitted costs at most the balance in use. -/
theorem observations_affordable :
    ∀ (scripts : List (List (Answers Digest))) (self : BridgeEventStream Digest × Shared Digest),
      Runs.Along inUse Affordable self.2.foreignBalance (observations app self scripts) := by
  intro scripts
  induction scripts with
  | nil => exact fun _ => trivial
  | cons script scripts ih =>
    intro self
    obtain ⟨hallowed, hfollows⟩ := (simulates app).call (.ok .notReady) script self
    refine Runs.along_append.2 ⟨hallowed, ?_⟩
    rw [← hfollows]
    exact ih (poll app self script).1

end BridgeEventStream

/-! ## What the account has to pay -/

namespace Observation

/-- What the admitted batches cost. -/
def spent : List Observation → Nat
  | [] => 0
  | .admitted cost :: observations => cost + spent observations
  | .request :: observations => spent observations
  | .refreshed _ :: observations => spent observations

/-- The balance covers all batches that were admitted since the node has
measured it, which is at some moment between the request and the answer.
`measured` are the costs of the batches from this moment on to the answer, and
`since` is what happens while the answer is in use. -/
def Covered (observations : List Observation) : Prop :=
  ∀ (before : List Observation) (unmeasured measured : List Nat) (balance : U256)
    (since after : List Observation),
    observations = before ++ .request :: ((unmeasured ++ measured).map .admitted
      ++ .refreshed balance :: (since ++ after)) →
    (∀ value, .refreshed value ∉ since) →
    measured.sum + spent since ≤ balance.toNat

/-- Nothing is admitted yet against the balance in use, and its successor is
not requested yet. -/
def fresh (unused : Bool) : Observation → Bool
  | .request => false
  | .refreshed _ => true
  | .admitted cost => unused && cost == 0

/-- A batch that costs something is admitted against a fresh balance only. -/
def OneBatch (unused : Bool) : Observation → Prop
  | .admitted cost => cost ≠ 0 → unused = true
  | _ => True

instance (unused : Bool) : (o : Observation) → Decidable (OneBatch unused o)
  | .admitted cost => inferInstanceAs (Decidable (cost ≠ 0 → unused = true))
  | .request => .isTrue trivial
  | .refreshed _ => .isTrue trivial

/-! ### The exact condition -/

/-- What is left pays for everything up to the next balance. -/
def Lasts (left : Nat) (observations : List Observation) : Prop :=
  ∀ since after, observations = since ++ after → (∀ value, .refreshed value ∉ since) →
    spent since ≤ left

/-- The balance that is on its way covers what was admitted since its request, and everything
up to the next balance. -/
def Awaited (asked : Nat) (observations : List Observation) : Prop :=
  ∀ (costs : List Nat) (balance : U256) (since after : List Observation),
    observations = costs.map .admitted ++ .refreshed balance :: (since ++ after) →
    (∀ value, .refreshed value ∉ since) → asked + costs.sum + spent since ≤ balance.toNat

section Cons

variable {left asked cost : Nat} {balance : U256} {o : Observation}
  {observations : List Observation}

/-- An observation that costs nothing can be put before what lasts. -/
theorem lasts_cons (hrefreshed : ∀ value, o ≠ .refreshed value) :
    Lasts left (o :: observations) ↔ spent [o] ≤ left ∧ Lasts (left - spent [o]) observations := by
  have hspent : ∀ since, spent (o :: since) = spent [o] + spent since := by
    intro since
    cases o with
    | admitted cost => rfl
    | request | refreshed => exact (Nat.zero_add _).symm
  constructor
  · intro h
    have hfirst : spent [o] ≤ left := by
      refine h [o] observations rfl fun value hmem => ?_
      exact hrefreshed value (List.mem_singleton.1 hmem).symm
    refine ⟨hfirst, fun since after heq hsince => ?_⟩
    have hle := h (o :: since) after (by rw [heq, List.cons_append]) fun value hmem =>
      (List.mem_cons.1 hmem).elim (fun heq => hrefreshed value heq.symm) (hsince value)
    rw [hspent] at hle
    omega
  · rintro ⟨hfirst, h⟩ since after heq hsince
    cases since with
    | nil => exact Nat.zero_le _
    | cons o' since =>
      obtain ⟨rfl, rfl⟩ := List.cons.inj heq
      have hle := h since after rfl fun value hmem => hsince value (List.mem_cons_of_mem _ hmem)
      rw [hspent]
      omega

theorem lasts_cons_refreshed : Lasts left (.refreshed balance :: observations) := by
  intro since after heq hsince
  cases since with
  | nil => exact Nat.zero_le _
  | cons o since =>
    obtain ⟨rfl, -⟩ := List.cons.inj heq
    exact absurd (List.mem_cons_self ..) (hsince balance)

theorem awaited_cons_request : Awaited asked (.request :: observations) := by
  intro costs balance since after heq _
  cases costs <;> cases heq

theorem awaited_cons_admitted :
    Awaited asked (.admitted cost :: observations) ↔ Awaited (asked + cost) observations := by
  constructor
  · intro h costs balance since after heq hsince
    have hle := h (cost :: costs) balance since after (by rw [heq]; rfl) hsince
    rw [List.sum_cons] at hle
    omega
  · intro h costs balance since after heq hsince
    cases costs with
    | nil => cases heq
    | cons c costs =>
      obtain ⟨hcost, rfl⟩ := List.cons.inj heq
      cases hcost
      have hle := h costs balance since after rfl hsince
      rw [List.sum_cons]
      omega

theorem awaited_cons_refreshed :
    Awaited asked (.refreshed balance :: observations) ↔
      asked ≤ balance.toNat ∧ Lasts (balance.toNat - asked) observations := by
  constructor
  · intro h
    have hspent := fun since after heq hsince => h [] balance since after heq hsince
    simp only [List.map_nil, List.nil_append, List.sum_nil, Nat.add_zero, List.cons.injEq,
      true_and] at hspent
    have hfirst := hspent [] observations rfl fun _ h => by cases h
    refine ⟨Nat.le_of_add_right_le hfirst, fun since after heq hsince => ?_⟩
    have hle := hspent since after heq hsince
    omega
  · rintro ⟨hfirst, h⟩ costs balance' since after heq hsince
    cases costs with
    | nil =>
      obtain ⟨hbalance, rfl⟩ := List.cons.inj heq
      cases hbalance
      have hle := h since after rfl hsince
      rw [List.sum_nil]
      omega
    | cons c costs => cases heq

theorem covered_cons_request :
    Covered (.request :: observations) ↔ Awaited 0 observations ∧ Covered observations := by
  constructor
  · refine fun h => ⟨fun costs balance since after heq hsince => ?_,
      fun before unmeasured measured balance since after heq => ?_⟩
    · have hle := h [] [] costs balance since after (by rw [heq]; rfl) hsince
      omega
    · exact h (.request :: before) unmeasured measured balance since after (by rw [heq]; rfl)
  · rintro ⟨hawaited, h⟩ before unmeasured measured balance since after heq hsince
    cases before with
    | nil =>
      obtain ⟨-, rfl⟩ := List.cons.inj heq
      have hle := hawaited (unmeasured ++ measured) balance since after rfl hsince
      rw [List.sum_append] at hle
      omega
    | cons o before =>
      obtain ⟨-, rfl⟩ := List.cons.inj heq
      exact h before unmeasured measured balance since after rfl hsince

theorem covered_cons (ho : o ≠ .request) : Covered (o :: observations) ↔ Covered observations := by
  constructor
  · intro h before unmeasured measured balance since after heq
    exact h (o :: before) unmeasured measured balance since after (by rw [heq]; rfl)
  · intro h before unmeasured measured balance since after heq
    cases before with
    | nil =>
      obtain ⟨rfl, -⟩ := List.cons.inj heq
      exact absurd rfl ho
    | cons o before =>
      obtain ⟨-, rfl⟩ := List.cons.inj heq
      exact h before unmeasured measured balance since after rfl

end Cons

/-- The books of the account: what was admitted since the request in flight, and what is left
of the balance in use after everything that was admitted since its request. -/
structure Books where
  asked : Option Nat
  left : Option Nat

namespace Books

def observe (self : Books) : Observation → Books
  | .request => { self with asked := some 0 }
  | .admitted cost => ⟨self.asked.map (· + cost), self.left.map (· - cost)⟩
  | .refreshed balance => ⟨none, self.asked.map (balance.toNat - ·)⟩

/-- A batch fits into what is left, and a balance that arrives covers what was admitted while
it was on its way. -/
def Affords (self : Books) : Observation → Prop
  | .request => True
  | .admitted cost => ∀ left ∈ self.left, cost ≤ left
  | .refreshed balance => ∀ asked ∈ self.asked, asked ≤ balance.toNat

/-- What the books say of the observations so far goes on for the others. -/
def Covers (self : Books) (observations : List Observation) : Prop :=
  (∀ left ∈ self.left, Lasts left observations) ∧
    (∀ asked ∈ self.asked, Awaited asked observations) ∧ Covered observations

theorem covers_nil (self : Books) : self.Covers [] := by
  refine ⟨fun left _ since after heq _ => ?_, fun asked _ costs balance since after heq _ => ?_,
    fun before unmeasured measured balance since after heq _ => ?_⟩
  · obtain ⟨rfl, -⟩ := List.append_eq_nil_iff.1 heq.symm
    exact Nat.zero_le _
  · exact absurd (List.append_eq_nil_iff.1 heq.symm).2 (List.cons_ne_nil _ _)
  · exact absurd (List.append_eq_nil_iff.1 heq.symm).2 (List.cons_ne_nil _ _)

theorem covers_cons (self : Books) (o : Observation) (observations : List Observation) :
    self.Covers (o :: observations) ↔ self.Affords o ∧ (self.observe o).Covers observations := by
  obtain ⟨asked, left⟩ := self
  unfold Covers
  cases o with
  | request =>
    have hlasts : ∀ left, Lasts left (.request :: observations) ↔ Lasts left observations := by
      intro left
      rw [lasts_cons (by simp)]
      simp [spent]
    simp [observe, Affords, hlasts, awaited_cons_request, covered_cons_request]
  | admitted cost =>
    have hlasts : ∀ left, Lasts left (.admitted cost :: observations) ↔
        cost ≤ left ∧ Lasts (left - cost) observations := fun left => lasts_cons (by simp)
    have hcovered : Covered (.admitted cost :: observations) ↔ Covered observations :=
      covered_cons (by simp)
    simp only [hlasts, awaited_cons_admitted, hcovered, observe, Affords, Option.mem_def,
      Option.map_eq_some_iff, forall_exists_index, and_imp, forall_apply_eq_imp_iff₂, forall_and]
    exact and_assoc
  | refreshed balance =>
    have hcovered : Covered (.refreshed balance :: observations) ↔ Covered observations :=
      covered_cons (by simp)
    simp only [lasts_cons_refreshed, awaited_cons_refreshed, hcovered, observe, Affords,
      Option.mem_def, Option.map_eq_some_iff, forall_exists_index, and_imp,
      forall_apply_eq_imp_iff₂, forall_and, implies_true, true_and, reduceCtorEq,
      IsEmpty.forall_iff]
    exact and_assoc

theorem covers_iff (observations : List Observation) :
    ∀ self : Books, self.Covers observations ↔ Runs.Along observe Affords self observations := by
  induction observations with
  | nil => exact fun self => iff_of_true self.covers_nil trivial
  | cons o observations ih =>
    exact fun self => (self.covers_cons o observations).trans (and_congr_right fun _ => ih _)

end Books

/-- Everything is covered exactly if every batch fits into what the balance in use has left,
and every balance covers what was admitted while it was on its way. -/
theorem covered_iff_affords (observations : List Observation) :
    Covered observations ↔ Runs.Along Books.observe Books.Affords ⟨none, none⟩ observations := by
  rw [← Books.covers_iff]
  simp [Books.Covers]

/-- What the books say when at most one batch is admitted against a balance. -/
structure Fresh (unused : Bool) (balance : Option U256) (books : Books) : Prop where
  asked : ∀ asked ∈ books.asked, asked = 0 ∧ unused = false
  left : unused = true → ∀ left ∈ books.left, ∃ value, balance = some value ∧ left = value.toNat

theorem affords_of_one_batch {observations : List Observation} :
    ∀ {unused : Bool} {balance : Option U256} {books : Books}, Fresh unused balance books →
      Runs.Along inUse Affordable balance observations →
      Runs.Along fresh OneBatch unused observations →
      Runs.Along Books.observe Books.Affords books observations := by
  induction observations with
  | nil => exact fun _ _ _ => trivial
  | cons o observations ih =>
    rintro unused balance ⟨asked, left⟩ h ⟨haffordable, hpaid⟩ ⟨honce, hrest⟩
    obtain ⟨hasked, hleft⟩ := h
    cases o with
    | request =>
      refine ⟨trivial, ih ⟨fun a ha => ?_, fun hunused => by cases hunused⟩ hpaid hrest⟩
      exact ⟨(Option.some.inj ha).symm, rfl⟩
    | refreshed value =>
      refine ⟨fun a ha => ?_, ih ⟨fun a ha => (by cases ha), fun _ l hl => ?_⟩ hpaid hrest⟩
      · rw [(hasked a ha).1]
        exact Nat.zero_le _
      · obtain ⟨a, ha, rfl⟩ := Option.map_eq_some_iff.1 hl
        exact ⟨value, rfl, by rw [(hasked a ha).1, Nat.sub_zero]⟩
    | admitted cost =>
      refine ⟨fun l hl => ?_, ih ⟨fun a ha => ?_, fun hunused l hl => ?_⟩ hpaid hrest⟩
      · by_cases hcost : cost = 0
        · rw [hcost]
          exact Nat.zero_le _
        · obtain ⟨value, hvalue, rfl⟩ := hleft (honce hcost) l hl
          obtain ⟨value', hvalue', hle⟩ := haffordable
          rw [Option.some.inj (hvalue.symm.trans hvalue')]
          exact hle
      · -- a request is in flight, so the batch costs nothing
        obtain ⟨a', ha', rfl⟩ := Option.map_eq_some_iff.1 ha
        obtain ⟨rfl, rfl⟩ := hasked a' ha'
        refine ⟨?_, rfl⟩
        by_contra hcost
        rw [Nat.zero_add] at hcost
        cases honce hcost
      · obtain ⟨hunused, hcost⟩ := (Bool.and_eq_true ..).mp hunused
        obtain ⟨l', hl', rfl⟩ := Option.map_eq_some_iff.1 hl
        rw [eq_of_beq hcost, Nat.sub_zero]
        exact hleft hunused l' hl'

theorem covered_of_one_batch {balance : Option U256} {observations : List Observation}
    (haffordable : Runs.Along inUse Affordable balance observations)
    (h : Runs.Along fresh OneBatch false observations) : Covered observations :=
  (covered_iff_affords observations).2 (affords_of_one_batch
    ⟨fun _ ha => (by cases ha), fun hunused => (by cases hunused)⟩ haffordable h)

end Observation

namespace BridgeEventStream

/-- In every run, over all orders of the relays and all delays of the balance:
when at most one batch that costs something is admitted after the balance was
refreshed, and before the next request for it is sent, the balance in use
covers everything that was admitted since the node has measured it. -/
theorem spending_covered_of_one_batch (app : App Digest) (init : Database)
    (homeChainId foreignChainId : UInt64) (shared : Shared Digest)
    (scripts : List (List (Answers Digest)))
    (h : Runs.Along fresh OneBatch false (observations app
      (createBridgeEventStream app init homeChainId foreignChainId, shared) scripts)) :
    Covered (observations app
      (createBridgeEventStream app init homeChainId foreignChainId, shared) scripts) :=
  covered_of_one_batch (observations_affordable app scripts _) h

/-! ### Two batches against one balance -/

/-- A withdrawal on the foreign chain, in block 1. -/
def withdrawLog : Log where
  address := 0xF0
  topics := [Abi.solidity.withdrawTopic]
  data := [Abi.addressWord 0xC, 5, 1].flatMap wordBytes
  transactionHash := some 0x78

/-- A foreign node at block 1. -/
def withdrawNode : LogStream.Answers where
  interval := .ok (.ready (some ()))
  blockNumber := .ok (.ready 1)
  logs := fun _ _ _ => .ok (.ready [withdrawLog])

/-- The node is asked for the balance of 30000, and then the relays get their
turns.  The batches stay in flight. -/
def balanceAnswers (turns : List (Select.Turn Bytes)) : Answers Bytes where
  homeBalance := List.replicate 3 (.ok (.ready 1000000))
  foreignBalance := List.replicate 3 (.ok (.ready 30000))
  running := true
  homeGasPrice := []
  foreignGasPrice := []
  bridge := turns

def depositTurn : Select.Turn Bytes := .depositRelay [⟨List.replicate 4 World.homeNode, []⟩]

def withdrawTurn : Select.Turn Bytes := .withdrawConfirm [⟨List.replicate 4 withdrawNode, []⟩]

/-- The observations of one poll of a new stream. -/
def balanceRun (turns : List (Select.Turn Bytes)) : List Observation :=
  observations World.authorityApp
    (createBridgeEventStream World.authorityApp World.deployedDatabase 1 2,
      ⟨0, 0, none, none, 1, 1, []⟩) [List.replicate 2 (balanceAnswers turns)]

/-- A deposit alone is covered. -/
theorem spending_covered_of_deposit :
    balanceRun [depositTurn] = [.request, .refreshed 30000, .admitted 21000] ∧
      Covered (balanceRun [depositTurn]) :=
  ⟨by decide +kernel, spending_covered_of_one_batch _ _ _ _ _ _ (by decide +kernel)⟩

/-- A deposit and a withdrawal pass the check one by one, and cost more than
there is together. -/
theorem two_relays_overspend :
    balanceRun [depositTurn, withdrawTurn]
        = [.request, .refreshed 30000, .admitted 21000, .admitted 21000] ∧
      ¬ Covered (balanceRun [depositTurn, withdrawTurn]) := by
  have hrun : balanceRun [depositTurn, withdrawTurn]
      = [.request, .refreshed 30000, .admitted 21000, .admitted 21000] := by
    decide +kernel
  refine ⟨hrun, fun hcovered => ?_⟩
  rw [hrun] at hcovered
  exact absurd (hcovered [] [] [] 30000 [.admitted 21000, .admitted 21000] [] rfl
    (by simp)) (by decide)

end BridgeEventStream

end PoaBridge
