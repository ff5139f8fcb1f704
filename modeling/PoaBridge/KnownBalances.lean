import PoaBridge.Bridge
import PoaBridge.Readings
import PoaBridge.Lib.Runs

/-!
# The balances are known when the relays are polled

The relays return `NotReady` when the balance that they need is unknown, and nothing
wakes them up then.  `balances_known` says that this never happens in a run that
starts with `create_bridge_event_stream`: the stream polls the relays in the state
`Wait` only, which it enters when both balances have arrived, and a balance that
has arrived stays known.

The check of the balances goes on to `Wait` also when one of the two checks ends.
`BalanceCheck` does not end (`BalanceCheck.poll_ne_end`).
-/

namespace PoaBridge

open PollLoop

variable {Digest : Type}

/-! ## The branches for an unknown balance -/

/-- The iteration takes the branch for an unknown balance. -/
def DepositRelay.BalanceUnknown (self : DepositRelay Digest × Shared Digest) : Prop :=
  self.1.state = .wait ∧ self.2.foreignBalance = none

@[inherit_doc DepositRelay.BalanceUnknown]
def WithdrawConfirm.BalanceUnknown (self : WithdrawConfirm Digest × Shared Digest) : Prop :=
  self.1.state = .wait ∧ self.2.foreignBalance = none

@[inherit_doc DepositRelay.BalanceUnknown]
def WithdrawRelay.BalanceUnknown (self : WithdrawRelay Digest × Shared Digest) : Prop :=
  (∃ assignments future block,
    self.1.state = .fetchMessagesSignatures assignments future block) ∧
    self.2.homeBalance = none

/-- Both balances have arrived. -/
def Readings.Known (self : Readings) : Prop :=
  self.homeBalance.isSome ∧ self.foreignBalance.isSome

/-- A balance that has arrived stays known. -/
def Readings.StaysKnown (before after : Readings) : Prop :=
  (before.homeBalance.isSome → after.homeBalance.isSome) ∧
    (before.foreignBalance.isSome → after.foreignBalance.isSome)

theorem Readings.StaysKnown.known {before after : Readings} (h : before.StaysKnown after)
    (hknown : before.Known) : after.Known :=
  ⟨h.1 hknown.1, h.2 hknown.2⟩

namespace Select

/-- The relay is polled with known balances, and none of its iterations takes the
branch for an unknown one. -/
def PolledKnown (app : App Digest) (self : Select Digest × Shared Digest) (turn : Turn Digest) :
    Prop :=
  self.2.readings.Known ∧
    match turn with
    | .depositRelay script =>
      Along (DepositRelay.body app) (fun s _ => ¬ DepositRelay.BalanceUnknown s)
        (self.1.depositRelay, self.2) script
    | .withdrawRelay script =>
      Along (WithdrawRelay.body app) (fun s _ => ¬ WithdrawRelay.BalanceUnknown s)
        (self.1.withdrawRelay, self.2) script
    | .withdrawConfirm script =>
      Along (WithdrawConfirm.body app) (fun s _ => ¬ WithdrawConfirm.BalanceUnknown s)
        (self.1.withdrawConfirm, self.2) script

end Select

namespace BridgeEventStream

/-- The turns of the relays in an iteration, if there are any: `body_bridge` says that
the iteration polls these relays, with these answers. -/
def RelaysKnown (app : App Digest) (self : BridgeEventStream Digest × Shared Digest)
    (answers : Answers Digest) : Prop :=
  self.1.state = .wait → answers.running = true →
    let self' := (getGasPrices self answers).1
    Along (Select.body app) (Select.PolledKnown app) (self'.1.bridge, self'.2) answers.bridge

/-- The iteration does not poll the relays: whatever they are answered, it does the same. -/
def RelaysIdle (app : App Digest) (self : BridgeEventStream Digest × Shared Digest)
    (answers : Answers Digest) : Prop :=
  ∀ turns, body app self { answers with bridge := turns } = body app self answers

end BridgeEventStream

/-! ## The invariant -/

theorem along_known {ρ ι : Type}
    {body : ρ × Shared Digest → ι → Flow (ρ × Shared Digest) (Poll (Option BridgeChecked))}
    {C : ρ × Shared Digest → Prop} (hbody : ∀ s i, KeepsReadings s.2.readings (body s i))
    (hknown : ∀ s : ρ × Shared Digest, s.2.readings.Known → C s) {self : ρ × Shared Digest}
    (h : self.2.readings.Known) (script : List ι) : Along body (fun s _ => C s) self script := by
  refine along_of_invariant (P := fun s : ρ × Shared Digest => s.2.readings.Known) script self
    (fun i _ s hs => ⟨hknown s hs, ?_⟩) h
  exact (hbody s i).imp (fun s' hs' => hs'.symm ▸ hs) fun s' _ hs' => hs'.symm ▸ hs

namespace Select

theorem polledKnown (app : App Digest) {self : Select Digest × Shared Digest}
    (h : self.2.readings.Known) (turn : Turn Digest) : PolledKnown app self turn := by
  refine ⟨h, ?_⟩
  cases turn with
  | depositRelay script =>
    exact along_known (DepositRelay.body_readings app)
      (fun s hs (hunknown : DepositRelay.BalanceUnknown s) =>
        Option.isSome_iff_ne_none.1 hs.2 hunknown.2) h script
  | withdrawRelay script =>
    exact along_known (WithdrawRelay.body_readings app)
      (fun s hs (hunknown : WithdrawRelay.BalanceUnknown s) =>
        Option.isSome_iff_ne_none.1 hs.1 hunknown.2) h script
  | withdrawConfirm script =>
    exact along_known (WithdrawConfirm.body_readings app)
      (fun s hs (hunknown : WithdrawConfirm.BalanceUnknown s) =>
        Option.isSome_iff_ne_none.1 hs.2 hunknown.2) h script

end Select

/-- The check of a balance does not end. -/
theorem BalanceCheck.poll_ne_end (self : BalanceCheck) (script : List (Poll U256)) :
    (self.poll script).2 ≠ .ok (.ready none) := by
  refine @run_sat _ _ _ body (.ok .notReady) (fun _ => True)
    (fun _ r => r ≠ .ok (.ready none)) (fun _ _ h => by cases h) script self ?_ trivial
  intro balance _ check _
  unfold body
  split
  · trivial
  · exact tryReady_sat (fun _ _ h => by cases h) (fun _ h => by cases h) fun _ _ => trivial
  · trivial
  · exact fun h => by cases h

/-- A stream that does not end makes `try_bridge!` return with errors only. -/
theorem exists_of_tryBridge_eq_error {α : Type} {polled : Poll (Option α)}
    {result : Poll (Option Unit)} (h : tryBridge polled = .error result)
    (hend : polled ≠ .ok (.ready none)) : ∃ e, result = .error e := by
  rcases polled with e | _ | _ | value
  · cases h
    exact ⟨e, rfl⟩
  · cases h
  · exact absurd rfl hend
  · cases h

namespace BridgeEventStream

/-- The relays are polled in the state `Wait`, and there the balances are known. -/
def BalancesInv (self : BridgeEventStream Digest × Shared Digest) : Prop :=
  self.1.state = .wait → self.2.readings.Known

theorem isSome_or {balance : Option U256} (new : Option U256) (h : balance.isSome) :
    (new.or balance).isSome := by
  rw [Option.isSome_or, h, Bool.or_true]

/-- `check_balances` forgets no balance, and it is done when both are known. -/
theorem checkBalances_known (self : BridgeEventStream Digest × Shared Digest)
    (answers : Answers Digest) :
    self.2.readings.StaysKnown (checkBalances self answers).1.2.readings ∧
      ∀ a, (checkBalances self answers).2 = .ok (.ready a) →
        (checkBalances self answers).1.2.readings.Known := by
  obtain ⟨stream, shared⟩ := self
  unfold checkBalances
  dsimp only
  cases hhome : tryBridge (stream.homeBalanceCheck.poll answers.homeBalance).2 with
  | error result =>
    obtain ⟨e, rfl⟩ := exists_of_tryBridge_eq_error hhome (BalanceCheck.poll_ne_end _ _)
    exact ⟨⟨id, id⟩, fun a h => by cases h⟩
  | ok home =>
    cases hforeign : tryBridge (stream.foreignBalanceCheck.poll answers.foreignBalance).2 with
    | error result =>
      obtain ⟨e, rfl⟩ := exists_of_tryBridge_eq_error hforeign (BalanceCheck.poll_ne_end _ _)
      exact ⟨⟨isSome_or home, id⟩, fun a h => by cases h⟩
    | ok foreign =>
      dsimp only
      split
      · exact ⟨⟨isSome_or home, isSome_or foreign⟩, fun a h => by cases h⟩
      · rename_i hknown
        refine ⟨⟨isSome_or home, isSome_or foreign⟩, fun _ _ => ?_⟩
        simp only [Bool.or_eq_true, Option.isNone_iff_eq_none, not_or] at hknown
        exact ⟨Option.isSome_iff_ne_none.2 hknown.1, Option.isSome_iff_ne_none.2 hknown.2⟩

/-- `get_gas_prices` leaves the balances alone. -/
theorem getGasPrices_staysKnown (self : BridgeEventStream Digest × Shared Digest)
    (answers : Answers Digest) :
    self.2.readings.StaysKnown (getGasPrices self answers).1.2.readings := by
  obtain ⟨_, _, _, _, hwrites⟩ := getGasPrices_writes self answers
  rw [hwrites]
  exact ⟨id, id⟩

variable (app : App Digest)

/-- What an iteration keeps. -/
theorem body_known {self : BridgeEventStream Digest × Shared Digest} (h : BalancesInv self)
    (answers : Answers Digest) :
    (body app self answers).Sat
      (fun s => BalancesInv s ∧ self.2.readings.StaysKnown s.2.readings)
      (fun s _ => BalancesInv s ∧ self.2.readings.StaysKnown s.2.readings) := by
  unfold body
  cases hstate : self.1.state with
  | init =>
    obtain ⟨hstays, hready⟩ := checkBalances_known self answers
    have hframe := (checkBalances_frame self answers).2.1
    have hwaits : BalancesInv (checkBalances self answers).1 := by
      intro hwait
      rw [hframe, hstate] at hwait
      cases hwait
    dsimp only
    rcases hchecked : checkBalances self answers with ⟨⟨stream, shared⟩, e | _ | a⟩
    all_goals rw [hchecked] at hstays hwaits hready
    · exact ⟨hwaits, hstays⟩
    · exact ⟨hwaits, hstays⟩
    · exact ⟨fun _ => hready a rfl, hstays⟩
  | wait =>
    dsimp only
    split
    · have hstays := getGasPrices_staysKnown self answers
      have hreadings := Select.poll_readings app
        ((getGasPrices self answers).1.1.bridge, (getGasPrices self answers).1.2) answers.bridge
      unfold awaitEvent
      dsimp only
      generalize Select.poll app
        ((getGasPrices self answers).1.1.bridge, (getGasPrices self answers).1.2) answers.bridge
        = polled at hreadings ⊢
      obtain ⟨⟨bridge, shared⟩, result⟩ := polled
      have hkept : ∀ stream : BridgeEventStream Digest, BalancesInv (stream, shared) ∧
          self.2.readings.StaysKnown shared.readings := by
        intro stream
        rw [show shared.readings = _ from hreadings]
        exact ⟨fun _ => hreadings.symm ▸ hstays.known (h hstate), hstays⟩
      exact tryStream_sat (fun _ _ => hkept _) (fun _ => hkept _) (fun _ => hkept _)
        fun _ _ => hkept _
    · exact ⟨h, ⟨id, id⟩⟩
  | nextItem item =>
    cases item with
    | none => exact ⟨fun hwait => (by cases hwait), ⟨id, id⟩⟩
    | some item => exact ⟨fun hwait => (by cases hwait), ⟨id, id⟩⟩

/-- In the state `Wait` the relays are polled with known balances. -/
theorem relaysKnown {self : BridgeEventStream Digest × Shared Digest} (h : BalancesInv self)
    (answers : Answers Digest) : RelaysKnown app self answers := by
  intro hwait _
  have hknown := (getGasPrices_staysKnown self answers).known (h hwait)
  refine along_of_invariant (P := fun s : Select Digest × Shared Digest => s.2.readings.Known)
    answers.bridge _ (fun turn _ s hs => ⟨Select.polledKnown app hs turn, ?_⟩) hknown
  exact (Select.body_readings app s turn).imp (fun s' hs' => hs'.symm ▸ hs)
    fun s' _ hs' => hs'.symm ▸ hs

/-- As long as a balance is unknown, the relays are not polled. -/
theorem relaysIdle {self : BridgeEventStream Digest × Shared Digest} (h : BalancesInv self)
    (hunknown : ¬ self.2.readings.Known) (answers : Answers Digest) :
    RelaysIdle app self answers := by
  intro turns
  refine body_congr ⟨rfl, fun _ => ⟨rfl, rfl⟩, fun _ => ⟨rfl, rfl⟩, fun hasks => ?_⟩
  exact absurd (h hasks.1) hunknown

/-- In every run of the stream, the relays are polled with known balances, their branches
for an unknown balance are not taken, and a balance that has arrived stays known.  While a
balance is unknown no answer to a relay makes a difference. -/
theorem balances_known (init : Database) (homeChainId foreignChainId : UInt64)
    (shared : Shared Digest) (scripts : List (List (Answers Digest))) :
    Runs.Along (fun s script => (poll app s script).1)
      (fun s script => Along (body app)
        (fun t answers => RelaysKnown app t answers ∧
          (¬ t.2.readings.Known → RelaysIdle app t answers) ∧
          t.2.readings.StaysKnown (body app t answers).state.2.readings) s script)
      (createBridgeEventStream app init homeChainId foreignChainId, shared) scripts := by
  have hpoll : ∀ s script, BalancesInv s → BalancesInv (poll app s script).1 := by
    intro s script hs
    refine @run_sat _ _ _ (body app) (.ok .notReady) BalancesInv (fun t _ => BalancesInv t)
      (fun _ ht => ht) script s (fun answers _ t ht => ?_) hs
    exact (body_known app ht answers).imp (fun _ h => h.1) fun _ _ h => h.1
  have hcreated : BalancesInv
      (createBridgeEventStream app init homeChainId foreignChainId, shared) := by
    intro hwait
    cases hwait
  refine Runs.along_of_step hpoll (fun s script hs => ?_) scripts hcreated
  refine along_of_invariant (P := BalancesInv) script s (fun answers _ t ht => ?_) hs
  have hbody := body_known app ht answers
  exact ⟨⟨relaysKnown app ht answers, fun hunknown => relaysIdle app ht hunknown answers,
      (hbody.imp (fun _ h => h.2) fun _ _ h => h.2).state⟩,
    hbody.imp (fun _ h => h.1) fun _ _ h => h.1⟩

/-- The balance of home arrives in the second poll, and there a deposit is relayed. -/
def arrivingScripts : List (List (Answers Bytes)) :=
  [[{ World.depositAnswers with homeBalance := List.replicate 2 (.ok .notReady) }],
    List.replicate 3 World.depositAnswers]

/-- A new stream of a process that knows no balance. -/
def arrivingStart : BridgeEventStream Bytes × Shared Bytes :=
  (createBridgeEventStream World.authorityApp World.deployedDatabase 1 2,
    ⟨0, 0, none, none, 1, 1, []⟩)

/-- The relays of this run are polled: one of them has a receipt at the end. -/
theorem balances_known_arriving :
    Runs.Along (fun s script => (poll World.authorityApp s script).1)
        (fun s script => Along (body World.authorityApp)
          (fun t answers => RelaysKnown World.authorityApp t answers ∧
            (¬ t.2.readings.Known → RelaysIdle World.authorityApp t answers) ∧
            t.2.readings.StaysKnown (body World.authorityApp t answers).state.2.readings) s script)
        arrivingStart arrivingScripts ∧
      (arrivingScripts.scanl (fun s script => (poll World.authorityApp s script).1)
          arrivingStart).map (fun s => (s.2.homeBalance, s.2.foreignBalance, s.2.receipts.length))
        = [(none, none, 0), (none, some 1000000, 0),
          (some 1000000, some 1000000, 1)] :=
  ⟨balances_known World.authorityApp World.deployedDatabase 1 2 ⟨0, 0, none, none, 1, 1, []⟩
    arrivingScripts, by decide +kernel⟩

end BridgeEventStream

end PoaBridge
