import PoaBridge.AnsweredRelays
import PoaBridge.Readings

/-!
# Relays that catch up

The relays of a process, in the order in which `BridgeEventStream` happens to poll them.
Between two polls the balances and the gas prices can change in any way, and an event
goes to the database.  A relay that fails ends the process.

`Inv` is what every such run keeps: the invariant of the relays, the tallies, and the
checkpoint of a relay that is idle is where its stream is.  `relays_catch_up` is the
progress: two polls in which the nodes answer bring a relay to the confirmed head of its
chain, whatever happened before and whatever the other relays do in between.
-/

namespace PoaBridge

open PollLoop

variable {Digest : Type}

/-! ## Runs of the relays -/

namespace Select

/-- The block that a relay reports next. -/
def block (self : Select Digest) : Relay → Option UInt64
  | .depositRelay => self.depositRelay.block
  | .withdrawRelay => self.withdrawRelay.block
  | .withdrawConfirm => self.withdrawConfirm.block

/-- The relay that is polled. -/
def Turn.relay : Turn Digest → Relay
  | .depositRelay _ => .depositRelay
  | .withdrawRelay _ => .withdrawRelay
  | .withdrawConfirm _ => .withdrawConfirm

/-- The other relays stay as they are. -/
theorem pollTurn_others (app : App Digest) (select : Select Digest) (shared : Shared Digest)
    {turn : Turn Digest} {relay : Relay} (h : turn.relay ≠ relay) :
    (pollTurn app (select, shared) turn).1.1.logs relay = select.logs relay ∧
      (pollTurn app (select, shared) turn).1.1.block relay = select.block relay := by
  cases turn <;> cases relay <;> first | exact absurd rfl h | exact ⟨rfl, rfl⟩

/-- A relay with nothing to report has nothing in progress. -/
theorem pending_of_block {self : Select Digest} {relay : Relay} (h : self.block relay = none) :
    self.pending relay = [] := by
  cases relay with
  | depositRelay =>
    rcases hstate : self.depositRelay.state with _ | _ | _ | _ <;>
      simp_all [block, pending, DepositRelay.block, DepositRelay.pending]
  | withdrawRelay =>
    rcases hstate : self.withdrawRelay.state with _ | _ | _ | _ | _ <;>
      simp_all [block, pending, WithdrawRelay.block, WithdrawRelay.pending]
  | withdrawConfirm =>
    rcases hstate : self.withdrawConfirm.state with _ | _ | _ | _ <;>
      simp_all [block, pending, WithdrawConfirm.block, WithdrawConfirm.pending]

end Select

/-- The relays of a process, what they share, and the database. -/
structure Relays (Digest : Type) where
  select : Select Digest
  shared : Shared Digest
  database : Database

namespace Relays

inductive Event (Digest : Type) where
  | turn (turn : Select.Turn Digest)
  /-- The balances and the gas prices have been checked. -/
  | checked (readings : Readings)

/-- The relays of a process that is started. -/
def start (app : App Digest) (w : World Digest) (homeChainId foreignChainId : UInt64)
    (homeNonce foreignNonce : U256) : Relays Digest where
  select := (createBridgeEventStream app w.file homeChainId foreignChainId).bridge
  shared := (w.step app (.start homeChainId foreignChainId homeNonce foreignNonce)).shared
  database := w.file

/-- One event.  `none` is the end of the process. -/
def step (app : App Digest) (self : Relays Digest) : Event Digest → Option (Relays Digest)
  | .turn turn =>
    match Select.pollTurn app (self.select, self.shared) turn with
    | (_, .error _) => none
    | ((select, shared), .ok .notReady) => some ⟨select, shared, self.database⟩
    | ((select, shared), .ok (.ready none)) => some ⟨select, shared, self.database⟩
    | ((select, shared), .ok (.ready (some event))) =>
      some ⟨select, shared, self.database.update event⟩
  | .checked readings => some { self with
      shared := { self.shared with
        homeBalance := readings.homeBalance
        foreignBalance := readings.foreignBalance
        homeGasPrice := readings.homeGasPrice
        foreignGasPrice := readings.foreignGasPrice } }

def run (app : App Digest) (self : Relays Digest) (events : List (Event Digest)) :
    Option (Relays Digest) :=
  events.foldlM (step app) self

/-- The nodes report the matching logs. -/
def Event.Faithful (chains : Chains) : Event Digest → Prop
  | .turn polled => polled.Faithful chains
  | .checked _ => True

/-- The event is not a poll of the relay. -/
def Event.Spares (relay : Relay) : Event Digest → Prop
  | .turn polled => polled.relay ≠ relay
  | .checked _ => True

/-! ## The invariant -/

/-- The confirmations that a relay waits for. -/
def confirmations (app : App Digest) : Relay → UInt64
  | .depositRelay => app.home.requiredConfirmations
  | .withdrawRelay => app.foreign.requiredConfirmations
  | .withdrawConfirm => app.foreign.requiredConfirmations

/-- The logs that a relay has relayed. -/
def done (self : Relays Digest) (relay : Relay) : List Log :=
  (self.shared.done relay).map Job.log

/-- The invariant of the relays of a process that began with `start`. -/
structure Inv (app : App Digest) (init : Database) (chains : Chains)
    (start now : Relays Digest) : Prop where
  select : Select.Inv app init chains (World.floor now.database) now.select now.shared
  recorded : Recorded app init chains start.shared now.shared
  tally : Select.Tally app init chains (World.floor start.database) start.done
    (now.select, now.shared)
  tracked : ∀ relay, Tracked (confirmations app relay) (World.floor now.database relay)
    (now.select.logs relay) (now.select.block relay)
  sourced : WithdrawRelay.Sourced chains.foreign
    (relaySpec app init chains .withdrawRelay).filter now.select.withdrawRelay

section Step

variable {app : App Digest} {init : Database} {chains : Chains} {start self self' : Relays Digest}

/-- What a poll of a relay that does not fail keeps track of. -/
structure TurnPost (app : App Digest) (chains : Chains) (filter : Filter)
    (checkpoints : Relay → Nat) (turn : Select.Turn Digest)
    (result : (Select Digest × Shared Digest) × Poll (Option BridgeChecked)) : Prop where
  tracked : Tracked (confirmations app turn.relay) (reported (checkpoints turn.relay) result.2)
    (result.1.1.logs turn.relay) (result.1.1.block turn.relay)
  event : ∀ event, result.2 = .ok (.ready (some event)) → event.relay = turn.relay
  sourced : WithdrawRelay.Sourced chains.foreign filter result.1.1.withdrawRelay

theorem reported_withContext (checkpoint : Nat) (context : String)
    (result : Poll (Option BridgeChecked)) :
    reported checkpoint (withContext context result) = reported checkpoint result := by
  rcases result with e | _ | _ | event <;> rfl

theorem turnPost_of_relay {ρ : Type} {relay : Relay} {RelayInv : ρ → Shared Digest → Prop}
    {logsOf : ρ → LogStream} {blockOf : ρ → Option UInt64} {start : Shared Digest}
    {polled : ρ × Shared Digest} {result : Poll (Option BridgeChecked)} {floor : Relay → Nat}
    {turn : Select.Turn Digest} {after : Select Digest} {filter : Filter} (context : String)
    (hturn : turn.relay = relay)
    (hpost : (relaySpec app init chains relay).Post app (init.checked relay).toNat (floor relay)
      RelayInv logsOf start polled result)
    (htracks : Tracks (confirmations app relay) (floor relay) logsOf blockOf polled result)
    (hself : after.logs relay = logsOf polled.1 ∧ after.block relay = blockOf polled.1)
    (hsourced : WithdrawRelay.Sourced chains.foreign filter after.withdrawRelay)
    (hok : ∀ e, withContext context result ≠ .error e) :
    TurnPost app chains filter floor turn ((after, polled.2), withContext context result) := by
  have hresult := ne_error_of_withContext hok
  subst hturn
  refine ⟨?_, ?_, hsourced⟩
  · dsimp only
    rw [reported_withContext, hself.1, hself.2]
    exact htracks hresult
  · intro event heq
    have hreported := (hpost.2 hresult).2 event (withContext_eq_ok.1 heq)
    rw [hreported.relay_eq, relay_relaySpec]

theorem pollTurn_turnPost {select : Select Digest} {shared : Shared Digest}
    {turn : Select.Turn Digest} {floor starts : Relay → Nat} {olds : Relay → List Log}
    (hturn : turn.Faithful chains) (hinv : Select.Inv app init chains floor select shared)
    (htally : Select.Tally app init chains starts olds (select, shared))
    (htracked : ∀ relay, Tracked (confirmations app relay) (floor relay) (select.logs relay)
      (select.block relay))
    (hsourced : WithdrawRelay.Sourced chains.foreign
      (relaySpec app init chains .withdrawRelay).filter select.withdrawRelay)
    (hok : ∀ e, (Select.pollTurn app (select, shared) turn).2 ≠ .error e) :
    TurnPost app chains (relaySpec app init chains .withdrawRelay).filter floor turn
      (Select.pollTurn app (select, shared) turn) := by
  cases turn with
  | depositRelay script =>
    exact @turnPost_of_relay _ app init chains _ .depositRelay _ _ _ shared _ _ floor
      (.depositRelay script) _ _ "deposit_relay" rfl
      (DepositRelay.poll_spec hturn.honest hinv.depositRelay)
      (DepositRelay.poll_tracked hturn.honest hinv.depositRelay (htracked .depositRelay))
      ⟨rfl, rfl⟩ hsourced hok
  | withdrawRelay script =>
    exact @turnPost_of_relay _ app init chains _ .withdrawRelay _ _ _ shared _ _ floor
      (.withdrawRelay script) _ _ "withdraw_relay" rfl
      (WithdrawRelay.poll_spec hturn.honest hinv.withdrawRelay)
      (WithdrawRelay.poll_tracked hturn.honest hinv.withdrawRelay (htracked .withdrawRelay))
      ⟨rfl, rfl⟩
      (WithdrawRelay.poll_sourced hturn hinv.withdrawRelay (htally .withdrawRelay) hsourced) hok
  | withdrawConfirm script =>
    exact @turnPost_of_relay _ app init chains _ .withdrawConfirm _ _ _ shared _ _ floor
      (.withdrawConfirm script) _ _ "withdraw_confirm" rfl
      (WithdrawConfirm.poll_spec hturn.honest hinv.withdrawConfirm)
      (WithdrawConfirm.poll_tracked hturn.honest hinv.withdrawConfirm (htracked .withdrawConfirm))
      ⟨rfl, rfl⟩ hsourced hok

/-- The relays after a poll, with the database in which the checkpoint of the relay is
the last block that it has reported. -/
theorem tracked_of_turnPost {select : Select Digest} {shared : Shared Digest}
    {turn : Select.Turn Digest} {filter : Filter} {floor floor' : Relay → Nat}
    (hpost : TurnPost app chains filter floor turn (Select.pollTurn app (select, shared) turn))
    (htracked : ∀ relay, Tracked (confirmations app relay) (floor relay) (select.logs relay)
      (select.block relay))
    (hself : floor' turn.relay
      = reported (floor turn.relay) (Select.pollTurn app (select, shared) turn).2)
    (hothers : ∀ relay, relay ≠ turn.relay → floor' relay = floor relay) (relay : Relay) :
    Tracked (confirmations app relay) (floor' relay)
      ((Select.pollTurn app (select, shared) turn).1.1.logs relay)
      ((Select.pollTurn app (select, shared) turn).1.1.block relay) := by
  by_cases hrelay : relay = turn.relay
  · subst hrelay
    rw [hself]
    exact hpost.tracked
  · obtain ⟨hlogs, hblock⟩ := Select.pollTurn_others app select shared (Ne.symm hrelay)
    rw [hothers relay hrelay, hlogs, hblock]
    exact htracked relay

theorem inv_turn {turn : Select.Turn Digest} (hturn : turn.Faithful chains)
    (h : Inv app init chains start self) (hstep : step app self (.turn turn) = some self') :
    Inv app init chains start self' := by
  have hpost := Select.pollTurn_spec hturn.honest h.select
  have htallied := Select.pollTurn_tallied hturn h.select h.tally
  have hturnPost := pollTurn_turnPost hturn h.select h.tally h.tracked h.sourced
  have htracked := @tracked_of_turnPost _ app chains self.select self.shared turn
    (relaySpec app init chains .withdrawRelay).filter (World.floor self.database)
  rw [step] at hstep
  generalize Select.pollTurn app (self.select, self.shared) turn = polled
    at hpost htallied hturnPost htracked hstep
  obtain ⟨⟨select, shared⟩, result⟩ := polled
  rcases result with e | _ | _ | event
  · cases hstep
  · cases hstep
    obtain ⟨hinv, -⟩ := hpost.2 (by simp)
    have hok := hturnPost (by simp)
    exact ⟨hinv, h.recorded.trans hpost.1, htallied.2 (by simp),
      htracked hok h.tracked rfl fun _ _ => rfl, hok.sourced⟩
  · cases hstep
    obtain ⟨hinv, -⟩ := hpost.2 (by simp)
    have hok := hturnPost (by simp)
    exact ⟨hinv, h.recorded.trans hpost.1, htallied.2 (by simp),
      htracked hok h.tracked rfl fun _ _ => rfl, hok.sourced⟩
  · cases hstep
    obtain ⟨hinv, hreported⟩ := hpost.2 (by simp)
    have hok := hturnPost (by simp)
    have hevent := hreported event rfl
    have hrelay := hok.event event rfl
    refine ⟨hinv.setFloor (World.floor_le_update hevent) (World.update_le_position hinv hevent),
      h.recorded.trans hpost.1, htallied.2 (by simp), htracked hok h.tracked ?_ ?_, hok.sourced⟩
    · rw [World.floor, ← hrelay, Database.checked_update_self]
      rfl
    · intro relay hne
      rw [World.floor, Database.checked_update_of_ne self.database (hrelay ▸ hne)]
      rfl

/-- The checks of the balances and of the gas prices. -/
theorem inv_checked (readings : Readings) (h : Inv app init chains start self)
    (hstep : step app self (.checked readings) = some self') : Inv app init chains start self' := by
  cases hstep
  refine ⟨h.select.of_receipts rfl, h.recorded.trans (.of_eq rfl), fun relay => ?_, h.tracked,
    h.sourced⟩
  exact (h.tally relay).frame rfl

theorem inv_step {event : Event Digest} (hevent : event.Faithful chains)
    (h : Inv app init chains start self) (hstep : step app self event = some self') :
    Inv app init chains start self' := by
  cases event with
  | turn turn => exact inv_turn hevent h hstep
  | checked readings => exact inv_checked readings h hstep

theorem inv_run {events : List (Event Digest)} (hevents : ∀ event ∈ events, event.Faithful chains)
    (h : Inv app init chains start self) (hrun : run app self events = some self') :
    Inv app init chains start self' := by
  induction events generalizing self with
  | nil =>
    cases hrun
    exact h
  | cons event events ih =>
    obtain ⟨middle, hstep, hrun⟩ := Option.bind_eq_some_iff.1 hrun
    exact ih (fun e he => hevents e (List.mem_cons_of_mem event he))
      (inv_step (hevents event (List.mem_cons_self ..)) h hstep) hrun

end Step

/-- The relays of a process that is started after any history. -/
theorem inv_start {app : App Digest} {init : Database} {chains : Chains} {w : World Digest}
    (h : World.Inv app init chains w) (homeChainId foreignChainId : UInt64)
    (homeNonce foreignNonce : U256) :
    Inv app init chains (start app w homeChainId foreignChainId homeNonce foreignNonce)
      (start app w homeChainId foreignChainId homeNonce foreignNonce) := by
  have hlife := World.life_start h homeChainId foreignChainId homeNonce foreignNonce
  have hstream := (hlife.inv.process _ rfl).2
  refine ⟨hstream.bridge, .of_eq rfl, hlife.tally _ rfl, fun relay => ?_, ?_⟩
  · cases relay <;> exact ⟨rfl, fun _ => rfl, fun hbusy => absurd rfl hbusy⟩
  · exact fun _ _ _ heq => by cases heq

/-! ## Progress -/

/-- What has to hold of the keystore and of the logs that a relay reads. -/
def Able (app : App Digest) (init : Database) (chains : Chains) (stores : WithdrawRelay.Stores) :
    Relay → Prop
  | .depositRelay => DepositRelay.Able app init chains.home
  | .withdrawRelay => WithdrawRelay.Able app init chains.foreign chains.called stores
  | .withdrawConfirm => WithdrawConfirm.Able app init chains.foreign

/-- The nodes answer all along the poll of a relay. -/
def Answered (app : App Digest) (best : Nat) (self : Relays Digest) :
    Select.Turn Digest → Prop
  | .depositRelay script => 4 ≤ script.length ∧ Along (DepositRelay.body app)
      (DepositRelay.Answered app best) (self.select.depositRelay, self.shared) script
  | .withdrawRelay script => 5 ≤ script.length ∧ Along (WithdrawRelay.body app)
      (WithdrawRelay.Answered app best) (self.select.withdrawRelay, self.shared) script
  | .withdrawConfirm script => 4 ≤ script.length ∧ Along (WithdrawConfirm.body app)
      (WithdrawConfirm.Answered app best) (self.select.withdrawConfirm, self.shared) script

section Progress

variable {app : App Digest} {init : Database} {chains : Chains} {stores : WithdrawRelay.Stores}
  {start self self' : Relays Digest} {best : Nat}

theorem finished_withContext {target : Nat} {caught : Prop} {logs : LogStream}
    {block : Option UInt64} {result : Poll (Option BridgeChecked)} (context : String)
    (h : Finished target caught logs block result) :
    Finished target caught logs block (withContext context result) := by
  rcases result with e | a
  · exact absurd rfl (h.ok e)
  · exact ⟨fun _ heq => (by cases heq), h.resting, h.idle, h.target_le⟩

theorem turn_finishes {turn : Select.Turn Digest} (hable : Able app init chains stores turn.relay)
    (hbest : best < 2 ^ 64) (hturn : turn.Faithful chains) (h : Inv app init chains start self)
    (hanswered : Answered app best self turn) :
    Finished (Following.head best (confirmations app turn.relay))
      (Caught (Following.head best (confirmations app turn.relay)) (self.select.logs turn.relay)
        (self.select.block turn.relay))
      ((Select.pollTurn app (self.select, self.shared) turn).1.1.logs turn.relay)
      ((Select.pollTurn app (self.select, self.shared) turn).1.1.block turn.relay)
      (Select.pollTurn app (self.select, self.shared) turn).2 := by
  have htracked := h.tracked turn.relay
  have htally := h.tally turn.relay
  cases turn with
  | depositRelay script =>
    exact finished_withContext "deposit_relay" (DepositRelay.poll_finishes hable hbest hturn
      h.select.depositRelay htally htracked hanswered.2 hanswered.1)
  | withdrawRelay script =>
    exact finished_withContext "withdraw_relay" (WithdrawRelay.poll_finishes hable hbest hturn
      h.select.withdrawRelay htally h.sourced htracked hanswered.2 hanswered.1)
  | withdrawConfirm script =>
    exact finished_withContext "withdraw_confirm" (WithdrawConfirm.poll_finishes hable hbest hturn
      h.select.withdrawConfirm htally htracked hanswered.2 hanswered.1)

/-- A poll that finishes does not end the process. -/
theorem exists_step {turn : Select.Turn Digest}
    (h : ∀ e, (Select.pollTurn app (self.select, self.shared) turn).2 ≠ .error e) :
    ∃ next, step app self (.turn turn) = some next ∧
      next.select = (Select.pollTurn app (self.select, self.shared) turn).1.1 := by
  rw [step]
  generalize Select.pollTurn app (self.select, self.shared) turn = polled at h ⊢
  obtain ⟨⟨select, shared⟩, result⟩ := polled
  rcases result with e | _ | _ | event
  · exact absurd rfl (h e)
  all_goals exact ⟨_, rfl, rfl⟩

/-- What an event leaves of a relay that it does not poll. -/
theorem step_spares {event : Event Digest} {relay : Relay} (hevent : event.Spares relay)
    (hstep : step app self event = some self') :
    self'.select.logs relay = self.select.logs relay ∧
      self'.select.block relay = self.select.block relay := by
  cases event with
  | turn turn =>
    have hothers := Select.pollTurn_others app self.select self.shared hevent
    rw [step] at hstep
    generalize Select.pollTurn app (self.select, self.shared) turn = polled at hothers hstep
    obtain ⟨⟨select, shared⟩, result⟩ := polled
    rcases result with e | _ | _ | event
    · cases hstep
    all_goals
      cases hstep
      exact hothers
  | checked readings =>
    cases hstep
    exact ⟨rfl, rfl⟩

theorem run_spares {events : List (Event Digest)} {relay : Relay}
    (hevents : ∀ event ∈ events, event.Spares relay) (hrun : run app self events = some self') :
    self'.select.logs relay = self.select.logs relay ∧
      self'.select.block relay = self.select.block relay := by
  induction events generalizing self with
  | nil =>
    cases hrun
    exact ⟨rfl, rfl⟩
  | cons event events ih =>
    obtain ⟨middle, hstep, hrun⟩ := Option.bind_eq_some_iff.1 hrun
    obtain ⟨hlogs, hblock⟩ := ih (fun e he => hevents e (List.mem_cons_of_mem event he)) hrun
    obtain ⟨hlogs', hblock'⟩ := step_spares (hevents event (List.mem_cons_self ..)) hstep
    exact ⟨hlogs.trans hlogs', hblock.trans hblock'⟩

/-- An idle relay has relayed exactly the logs up to its checkpoint. -/
theorem Inv.relayed (h : Inv app init chains start self) {relay : Relay}
    (hidle : self.select.block relay = none) :
    ∃ new, self.shared.receipts = start.shared.receipts ++ new ∧
      (∀ receipt ∈ new, (relaySpec app init chains receipt.relay).Valid app receipt) ∧
      ((new.filter (·.relay = relay)).map fun receipt => receipt.job.log).Perm
        ((relaySpec app init chains relay).duties (World.floor start.database relay)
          (World.floor self.database relay)) := by
  obtain ⟨new, hnew, hvalid⟩ := h.recorded
  refine ⟨new, hnew, hvalid, ?_⟩
  have hdone : (self.shared.done relay).map Job.log = start.done relay
      ++ (new.filter (·.relay = relay)).map fun receipt => receipt.job.log := by
    rw [Shared.done, hnew, List.filter_append, List.map_append, List.map_append]
    exact congrArg (start.done relay ++ ·) List.map_map
  have hperm := (h.tally relay).perm
  rw [Select.pending_of_block hidle, List.nil_append, relay_relaySpec,
    (h.tracked relay).idle hidle, hdone] at hperm
  exact (List.perm_append_right_iff (start.done relay)).1
    (List.perm_append_comm.trans hperm)

/-- An answered poll. -/
theorem step_answered {turn : Select.Turn Digest} (hable : Able app init chains stores turn.relay)
    (hbest : best < 2 ^ 64) (hturn : turn.Faithful chains) (h : Inv app init chains start self)
    (hanswered : Answered app best self turn) :
    ∃ next, step app self (.turn turn) = some next ∧ Inv app init chains start next ∧
      next.select.block turn.relay = none ∧ Following.Resting (next.select.logs turn.relay) ∧
      (Caught (Following.head best (confirmations app turn.relay)) (self.select.logs turn.relay)
          (self.select.block turn.relay) →
        Following.head best (confirmations app turn.relay)
          ≤ World.floor next.database turn.relay) := by
  have hfinished := turn_finishes hable hbest hturn h hanswered
  obtain ⟨next, hstep, hselect⟩ := @exists_step _ app self turn hfinished.ok
  rw [← hselect] at hfinished
  have hnext := inv_turn hturn h hstep
  refine ⟨next, hstep, hnext, hfinished.idle, hfinished.resting, fun hcaught => ?_⟩
  rw [← (hnext.tracked turn.relay).idle hfinished.idle]
  exact hfinished.target_le hcaught

end Progress

/-- A relay catches up, after any history and any run of the relays of a process, in every
order, with nodes that report the matching logs.

Two polls of the relay have to be answered all along.  The first one finishes what was
under way.  Then the other relays may be polled, and the balances and the prices may
change.  The second one brings the checkpoint to the last block that has the
confirmations, and by then the relay has relayed exactly the logs of the blocks that the
process has to account for: each of these receipts is for a transaction that the node
took.  Neither of the two polls fails. -/
theorem relays_catch_up (app : App Digest) (init : Database) (chains : Chains)
    (stores : WithdrawRelay.Stores) (before : List (World.Step Digest))
    (hbefore : ∀ s ∈ before, s.Honest chains) (homeChainId foreignChainId : UInt64)
    (homeNonce foreignNonce : U256) (events : List (Event Digest))
    (hevents : ∀ event ∈ events, event.Faithful chains) (self : Relays Digest) (relay : Relay)
    (hable : Able app init chains stores relay) :
    let begun := start app (World.run app (World.initial init) before) homeChainId foreignChainId
      homeNonce foreignNonce
    run app begun events = some self →
    ∀ (first : Select.Turn Digest) (best : Nat), first.relay = relay → first.Faithful chains →
      best < 2 ^ 64 → Answered app best self first →
      ∃ middle, step app self (.turn first) = some middle ∧
        ∀ (between : List (Event Digest)) (other : Relays Digest),
          (∀ event ∈ between, event.Faithful chains ∧ event.Spares relay) →
          run app middle between = some other →
          ∀ (second : Select.Turn Digest) (best : Nat), second.relay = relay →
            second.Faithful chains → best < 2 ^ 64 → Answered app best other second →
            ∃ final new, step app other (.turn second) = some final ∧
              best - (confirmations app relay).toNat ≤ (final.database.checked relay).toNat ∧
              final.shared.receipts = begun.shared.receipts ++ new ∧
              (∀ receipt ∈ new, (relaySpec app init chains receipt.relay).Valid app receipt) ∧
              ((new.filter (·.relay = relay)).map fun receipt => receipt.job.log).Perm
                ((relaySpec app init chains relay).duties (begun.database.checked relay).toNat
                  (final.database.checked relay).toNat) := by
  intro begun hrun first best hfirst hfaithful hbest hanswered
  have hworld : World.Inv app init chains (World.run app (World.initial init) before) :=
    List.foldlRecOn before (World.step app) (motive := World.Inv app init chains)
      (World.inv_initial init chains) fun w hw s hmem => World.inv_step (hbefore s hmem) hw
  have hself : Inv app init chains begun self := inv_run hevents (inv_start hworld _ _ _ _) hrun
  subst hfirst
  obtain ⟨middle, hstep, hmiddle, hidle, hresting, -⟩ :=
    step_answered hable hbest hfaithful hself hanswered
  refine ⟨middle, hstep, ?_⟩
  intro between other hbetween hrun' second best' hsecond hfaithful' hbest' hanswered'
  have hother := inv_run (fun event hmem => (hbetween event hmem).1) hmiddle hrun'
  obtain ⟨hlogs, hblock⟩ := run_spares (fun event hmem => (hbetween event hmem).2) hrun'
  -- nothing has been taken up since the first poll
  have hcaught : ∀ target, Caught target (other.select.logs first.relay)
      (other.select.block first.relay) := by
    intro target
    rw [hlogs, hblock, hidle]
    exact ⟨hresting, fun hbusy => absurd rfl hbusy⟩
  rw [← hsecond] at hable hcaught
  obtain ⟨final, hstep', hfinal, hidle', -, hhead⟩ :=
    step_answered hable hbest' hfaithful' hother hanswered'
  obtain ⟨new, hnew, hvalid, hperm⟩ := hfinal.relayed hidle'
  rw [hsecond] at hperm hhead
  exact ⟨final, new, hstep', hhead (hsecond ▸ hcaught _), hnew, hvalid, hperm⟩

/-! ### A deposit that is caught up with -/

/-- A node that knows the chain up to the block, and takes every transaction. -/
def answering (best : Nat) : DepositRelay.Answers Bytes where
  logs := List.replicate 5 (Following.allKnowing World.depositChains.home best)
  future := List.replicate 2 (0, List.replicate 4 World.foreignNode)

def knownReadings : Readings := ⟨some 1000000, some 1000000, 1, 1⟩

/-- The relays of `World.authorityApp`, with known balances. -/
def funded : Relays Bytes :=
  { start World.authorityApp
      (World.run World.authorityApp (World.initial World.deployedDatabase) []) 1 2 0 0 with
    shared := ⟨0, 0, some 1000000, some 1000000, 1, 1, []⟩ }

theorem faithful_allKnowing (chain : Nat → List Log) (best : Nat) :
    Faithful chain (Following.allKnowing chain best) := by
  rintro filter fromBlock toBlock logs ⟨⟩
  exact List.Perm.refl _

theorem able_authorityApp : DepositRelay.Able World.authorityApp World.deployedDatabase
    World.depositChains.home := by
  refine ⟨fun chainId tx => ⟨_, rfl⟩, ?_⟩
  intro block log hlog _
  have hdeposit : log = World.depositLog := by
    have h : log ∈ if block = 1 then [World.depositLog] else [] := hlog
    split at h
    · exact List.mem_singleton.1 h
    · cases h
  subst hdeposit
  exact ⟨_, rfl⟩

theorem takes_foreignNode : NonceCheck.Takes World.foreignNode :=
  ⟨⟨0, rfl⟩, fun raw => .inl ⟨raw, rfl⟩⟩

/-- The deposit relay is polled while the chain is that long. -/
def depositTurn (best : Nat) : Select.Turn Bytes :=
  .depositRelay (List.replicate 4 (answering best))

theorem faithful_depositTurn (best : Nat) : (depositTurn best).Faithful World.depositChains := by
  intro answers hanswers a ha
  rw [List.eq_of_mem_replicate hanswers] at ha
  rw [List.eq_of_mem_replicate ha]
  exact faithful_allKnowing _ best

theorem prompt_answering {best : Nat} (hbest : best < 2 ^ 256) :
    ∀ a ∈ (answering best).logs, Following.Prompt best a := by
  intro a ha
  rw [List.eq_of_mem_replicate ha]
  exact Following.prompt_allKnowing _ hbest

theorem answered_first : Answered World.authorityApp 0 funded (depositTurn 0) := by
  refine ⟨by decide, ⟨prompt_answering (by decide), by decide, 1000000, rfl, ?_⟩, ?_⟩
  · intro item hitem
    cases hitem
  · trivial

/-- The relays after a poll in which there was nothing to read. -/
def rested : Relays Bytes :=
  (step World.authorityApp funded (.turn (depositTurn 0))).getD funded

theorem answered_second : Answered World.authorityApp 1 rested (depositTurn 1) := by
  refine ⟨by decide, ⟨prompt_answering (by decide), by decide, 1000000, rfl, ?_⟩, ?_, ?_, ?_⟩
  · intro item hitem
    have hlength : item.logs.length = 1 := by
      cases hitem
      decide +kernel
    rw [hlength]
    decide +kernel
  · refine ⟨Collect.exhausts_replicate (n := 1) (k := 2) (by decide), ?_⟩
    intro p hp
    rw [List.eq_of_mem_replicate hp]
    refine ⟨by decide, fun answers hanswers => ?_⟩
    rw [List.eq_of_mem_replicate hanswers]
    exact takes_foreignNode
  · trivial
  · trivial

/-- The first poll finds no block with deposits, and the second one relays the deposit. -/
theorem relays_catch_up_deposit : ∃ final new,
    step World.authorityApp rested (.turn (depositTurn 1)) = some final ∧
      1 ≤ (final.database.checked .depositRelay).toNat ∧
      final.shared.receipts = funded.shared.receipts ++ new ∧
      ((new.filter (·.relay = .depositRelay)).map fun receipt => receipt.job.log).Perm
        ((relaySpec World.authorityApp World.deployedDatabase World.depositChains
          .depositRelay).duties 0 (final.database.checked .depositRelay).toNat) := by
  obtain ⟨middle, hmiddle, hcatch⟩ := relays_catch_up World.authorityApp World.deployedDatabase
    World.depositChains WithdrawRelay.relayedStores [] (by simp) 1 2 0 0 [.checked knownReadings]
    (by simp [Event.Faithful]) funded .depositRelay able_authorityApp rfl (depositTurn 0) 0 rfl
    (faithful_depositTurn 0) (by decide) answered_first
  have hrested : middle = rested := Option.some.inj (hmiddle.symm.trans rfl)
  obtain ⟨final, new, hstep, hhead, hreceipts, -, hperm⟩ := hcatch [] middle (by simp) rfl
    (depositTurn 1) 1 rfl (faithful_depositTurn 1) (by decide) (hrested ▸ answered_second)
  rw [hrested] at hstep
  exact ⟨final, new, hstep, hhead, hreceipts, hperm⟩

end Relays

end PoaBridge
