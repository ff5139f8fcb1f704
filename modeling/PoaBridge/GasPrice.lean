import Mathlib.Data.List.ReduceOption
import PoaBridge.Lib.Traces
import PoaBridge.Monitor

/-!
# The price that the oracle stream falls back on

`GasPriceStream` over whole runs.  An outcome of a request is one of seven kinds, and
only one of them has a price.  `prices_fall_back` says that the stream returns one price
for every outcome, in order: the price of the last outcome that had one, and the default
price when there was none yet.

`mostRecent` is what a stream with a memory of one value returns.  `Follows` says that an
iteration returns and keeps what `mostRecent` says, and `poll_follows` that a poll does.
-/

namespace PoaBridge

open PollLoop

/-! ## A memory of one value -/

section MostRecent

variable {α : Type}

/-- The value that is remembered at the end. -/
def recent (last : α) (goods : List (Option α)) : α :=
  goods.foldl (fun last good => good.getD last) last

/-- The value that is remembered after each entry. -/
def mostRecent : α → List (Option α) → List α
  | _, [] => []
  | last, good :: goods => good.getD last :: mostRecent (good.getD last) goods

@[simp] theorem length_mostRecent (last : α) (goods : List (Option α)) :
    (mostRecent last goods).length = goods.length := by
  induction goods generalizing last with
  | nil => rfl
  | cons good goods ih => rw [mostRecent, List.length_cons, ih, List.length_cons]

theorem recent_append (last : α) (goods goods' : List (Option α)) :
    recent last (goods ++ goods') = recent (recent last goods) goods' :=
  List.foldl_append

theorem mostRecent_append (last : α) (goods goods' : List (Option α)) :
    mostRecent last (goods ++ goods')
      = mostRecent last goods ++ mostRecent (recent last goods) goods' := by
  induction goods generalizing last with
  | nil => rfl
  | cons good goods ih =>
    rw [List.cons_append, mostRecent, ih, mostRecent, List.cons_append]
    rfl

/-- What is remembered is the last entry that has a value. -/
theorem recent_eq_getLast (last : α) (goods : List (Option α)) :
    recent last goods = goods.reduceOption.getLast?.getD last := by
  induction goods generalizing last with
  | nil => rfl
  | cons good goods ih =>
    rw [show recent last (good :: goods) = recent (good.getD last) goods from rfl, ih]
    cases good with
    | none => rfl
    | some value =>
      rw [List.reduceOption_cons_of_some, List.getLast?_cons]
      rfl

theorem getElem_mostRecent {last : α} {goods : List (Option α)} {i : Nat}
    (h : i < (mostRecent last goods).length) :
    (mostRecent last goods)[i] = recent last (goods.take (i + 1)) := by
  induction goods generalizing last i with
  | nil => cases h
  | cons good goods ih =>
    cases i with
    | zero => rfl
    | succ i => exact ih (Nat.lt_of_succ_lt_succ h)

end MostRecent

/-! ## The outcomes of the requests -/

/-- A value of a JSON object. -/
inductive JsonValue (Number : Type) where
  | number (value : Number)
  | otherValue
deriving DecidableEq, Repr

/-- How a request to the oracle ends. -/
inductive OracleOutcome (Number : Type) where
  | transportError (err : Error)
  | timeout
  | notJson
  | notObject
  | object (fields : String → Option (JsonValue Number))

variable {Number : Type}

/-- What the stream makes of a value.  `toWei` is
`(price.as_f64().unwrap() * 1_000_000_000.0).trunc() as u64`. -/
def JsonValue.oracleValue (toWei : Number → UInt64) : JsonValue Number → OracleValue
  | .number value => .number (toWei value)
  | .otherValue => .otherValue

namespace OracleOutcome

/-- What `request_future.poll()` returns. -/
def response (toWei : Number → UInt64) : OracleOutcome Number → Poll OracleResponse
  | .transportError err => .error err
  | .timeout => .error (.timeout "communication timeout")
  | .notJson => .ok (.ready none)
  | .notObject => .ok (.ready none)
  | .object fields =>
    .ok (.ready (some fun key => (fields key).map (JsonValue.oracleValue toWei)))

/-- The price of an outcome that has one: an object with a number under the configured
speed. -/
def price (toWei : Number → UInt64) (speed : GasPriceSpeed) :
    OracleOutcome Number → Option UInt64
  | .object fields =>
    match fields speed.asStr with
    | some (.number value) => some (toWei value)
    | _ => none
  | _ => none

end OracleOutcome

namespace GasPriceStream

/-- What happens in one iteration: what the interval answers, and how the request ends,
if it does. -/
structure Moment (Number : Type) where
  interval : Poll (Option Unit)
  outcome : Option (OracleOutcome Number)

def Moment.answers (toWei : Number → UInt64) (self : Moment Number) : Answers where
  interval := self.interval
  response :=
    match self.outcome with
    | none => .ok .notReady
    | some outcome => outcome.response toWei

/-- The interval works: it does not fail, and it does not end. -/
def Answers.Ticks (self : Answers) : Prop :=
  self.interval = .ok .notReady ∨ self.interval = .ok (.ready (some ()))

@[inherit_doc Answers.Ticks]
def Moment.Ticks (self : Moment Number) : Prop :=
  self.interval = .ok .notReady ∨ self.interval = .ok (.ready (some ()))

/-- The outcome that the stream gets in an iteration. -/
def received (self : GasPriceStream) (moment : Moment Number) : List (OracleOutcome Number) :=
  match self.state with
  | .waitingForResponse => moment.outcome.toList
  | _ => []

variable (toWei : Number → UInt64)

/-- `GasPriceStream::poll`. -/
def pollMoments (self : GasPriceStream) (script : List (Moment Number)) :
    GasPriceStream × Poll (Option UInt64) :=
  self.poll (script.map (Moment.answers toWei))

/-- The outcomes that the stream gets in a poll. -/
def outcomesOf (self : GasPriceStream) (script : List (Moment Number)) :
    List (OracleOutcome Number) :=
  trace (fun s moment => body s (moment.answers toWei)) received self script

/-- The stream after a run. -/
def after (self : GasPriceStream) (scripts : List (List (Moment Number))) : GasPriceStream :=
  scripts.foldl (fun self script => (self.pollMoments toWei script).1) self

/-- What the polls of a run return. -/
def results : GasPriceStream → List (List (Moment Number)) → List (Poll (Option UInt64))
  | _, [] => []
  | self, script :: scripts =>
    (self.pollMoments toWei script).2 :: results (self.pollMoments toWei script).1 scripts

/-- The outcomes of a run. -/
def outcomes : GasPriceStream → List (List (Moment Number)) → List (OracleOutcome Number)
  | _, [] => []
  | self, script :: scripts =>
    self.outcomesOf toWei script ++ outcomes (self.pollMoments toWei script).1 scripts

/-- The price that a poll returns. -/
def returned : Poll (Option UInt64) → List UInt64
  | .ok (.ready (some price)) => [price]
  | _ => []

/-- The prices of a run. -/
def prices (self : GasPriceStream) (scripts : List (List (Moment Number))) : List UInt64 :=
  (self.results toWei scripts).flatMap returned

/-- The price that the stream returns next. -/
def pending (self : GasPriceStream) : List UInt64 :=
  match self.state with
  | .yield (some price) => [price]
  | _ => []

/-- The price that the stream goes back to when a request has none. -/
def current (self : GasPriceStream) : UInt64 :=
  match self.state with
  | .yield (some price) => price
  | _ => self.lastPrice

/-! ## What an iteration and a poll do -/

/-- The stream returns a price, or it is not ready. -/
def Yields (result : Poll (Option UInt64)) : Prop :=
  result = .ok .notReady ∨ ∃ price, result = .ok (.ready (some price))

theorem body_yields (self : GasPriceStream) {answers : Answers} (h : answers.Ticks) :
    (body self answers).Sat (fun _ => True) fun _ result => Yields result := by
  unfold body
  split
  · refine tryStream_sat (fun e he => ?_) (fun _ => .inl rfl) (fun hend => ?_) fun _ _ => trivial
    · rcases h with h | h <;> cases h.symm.trans he
    · rcases h with h | h <;> cases h.symm.trans hend
  · split
    · exact .inl rfl
    · trivial
    · trivial
  · trivial
  · rename_i price _
    exact .inr ⟨price, rfl⟩

/-- As long as the interval works, the stream does not fail or end. -/
theorem poll_yields {script : List Answers} (h : ∀ answers ∈ script, answers.Ticks)
    (self : GasPriceStream) : Yields (self.poll script).2 :=
  run_sat (P := fun _ => True) (Q := fun _ result => Yields result) (fun _ _ => .inl rfl) script
    self (fun answers hmem s _ => body_yields s (h answers hmem)) trivial

/-- Only a stream that waits for a response reads one: an outcome that `received` leaves out
makes no difference. -/
theorem body_of_not_waiting (toWei : Number → UInt64) {self : GasPriceStream}
    (h : self.state ≠ .waitingForResponse) (moment : Moment Number)
    (outcome : Option (OracleOutcome Number)) :
    body self ({ moment with outcome := outcome }.answers toWei)
      = body self (moment.answers toWei) := by
  unfold body
  cases hstate : self.state with
  | initial => rfl
  | waitingForResponse => exact absurd hstate h
  | yield price => cases price <;> rfl

/-- What a stream returns on the way from `start` to `stop`, and what it keeps, follow from
the outcomes that it gets. -/
structure Follows (start stop : GasPriceStream) (returned : List UInt64)
    (outcomes : List (OracleOutcome Number)) : Prop where
  speed : stop.speed = start.speed
  prices : returned ++ stop.pending
    = start.pending ++ mostRecent start.current (outcomes.map (·.price toWei start.speed))
  current : stop.current = recent start.current (outcomes.map (·.price toWei start.speed))

variable {toWei}

theorem Follows.refl (self : GasPriceStream) :
    Follows toWei self self [] ([] : List (OracleOutcome Number)) :=
  ⟨rfl, (List.append_nil _).symm, rfl⟩

theorem Follows.trans {a b c : GasPriceStream} {before after : List UInt64}
    {outcomes outcomes' : List (OracleOutcome Number)} (hab : Follows toWei a b before outcomes)
    (hbc : Follows toWei b c after outcomes') :
    Follows toWei a c (before ++ after) (outcomes ++ outcomes') := by
  obtain ⟨hspeed, hprices, hcurrent⟩ := hab
  obtain ⟨hspeed', hprices', hcurrent'⟩ := hbc
  rw [hspeed, hcurrent] at hprices' hcurrent'
  refine ⟨hspeed'.trans hspeed, ?_, ?_⟩
  · rw [List.append_assoc, hprices', ← List.append_assoc, hprices, List.append_assoc,
      ← mostRecent_append, List.map_append]
  · rw [hcurrent', List.map_append, recent_append]

theorem parse_response {outcome : OracleOutcome Number} {self : GasPriceStream}
    {response : OracleResponse} (h : outcome.response toWei = .ok (.ready response)) :
    self.parse response = (outcome.price toWei self.speed).getD self.lastPrice := by
  cases outcome with
  | transportError err => cases h
  | timeout => cases h
  | notJson =>
    cases h
    rfl
  | notObject =>
    cases h
    rfl
  | object fields =>
    cases h
    unfold parse OracleOutcome.price
    dsimp only
    cases fields self.speed.asStr with
    | none => rfl
    | some value => cases value <;> rfl

/-- A request that fails has no price. -/
theorem price_of_error {outcome : OracleOutcome Number} {err : Error}
    (h : outcome.response toWei = .error err) (speed : GasPriceSpeed) :
    outcome.price toWei speed = none := by
  cases outcome with
  | transportError err => rfl
  | timeout => rfl
  | notJson => cases h
  | notObject => cases h
  | object fields => cases h

/-- The outcome of a request is ready when it is there. -/
theorem response_ne_notReady (outcome : OracleOutcome Number) :
    outcome.response toWei ≠ .ok .notReady := by
  cases outcome <;> exact fun h => by cases h

theorem body_follows (self : GasPriceStream) {moment : Moment Number} (h : moment.Ticks) :
    (body self (moment.answers toWei)).Sat
      (fun self' => Follows toWei self self' [] (self.received moment))
      (fun self' result => Follows toWei self self' (returned result) (self.received moment)) := by
  obtain ⟨state, speed, lastPrice⟩ := self
  cases state with
  | initial =>
    rcases h with h | h
    · unfold body Moment.answers
      dsimp only
      rw [h]
      exact ⟨rfl, rfl, rfl⟩
    · unfold body Moment.answers
      dsimp only
      rw [h]
      exact ⟨rfl, rfl, rfl⟩
  | waitingForResponse =>
    unfold body Moment.answers received
    dsimp only
    cases moment.outcome with
    | none => exact ⟨rfl, rfl, rfl⟩
    | some outcome =>
      dsimp only
      split
      · rename_i hresponse
        exact absurd hresponse (response_ne_notReady outcome)
      · rename_i response hresponse
        rw [parse_response hresponse]
        exact ⟨rfl, rfl, rfl⟩
      · rename_i err hresponse
        refine ⟨rfl, ?_, ?_⟩
        · rw [Option.toList_some, List.map_singleton, price_of_error hresponse]
          rfl
        · rw [Option.toList_some, List.map_singleton, price_of_error hresponse]
          rfl
  | yield price =>
    cases price with
    | none => exact ⟨rfl, rfl, rfl⟩
    | some price => exact ⟨rfl, rfl, rfl⟩

/-- What a poll returns and keeps follows from the outcomes that it gets. -/
theorem poll_follows {script : List (Moment Number)} (h : ∀ moment ∈ script, moment.Ticks) :
    ∀ self : GasPriceStream, Follows toWei self (self.pollMoments toWei script).1
      (returned (self.pollMoments toWei script).2) (self.outcomesOf toWei script) := by
  unfold pollMoments poll outcomesOf
  simp only [run_map]
  induction script with
  | nil => exact Follows.refl
  | cons moment script ih =>
    intro self
    have hstep := @body_follows _ toWei self moment (h moment (List.mem_cons_self ..))
    rw [run, trace]
    cases hflow : body self (moment.answers toWei) with
    | next self' =>
      rw [hflow] at hstep
      exact Follows.trans hstep (ih (fun m hm => h m (List.mem_cons_of_mem _ hm)) self')
    | ret self' result =>
      rw [hflow] at hstep
      dsimp only
      rw [List.append_nil]
      exact hstep

theorem results_yield {scripts : List (List (Moment Number))}
    (h : ∀ script ∈ scripts, ∀ moment ∈ script, moment.Ticks) :
    ∀ self : GasPriceStream, ∀ result ∈ self.results toWei scripts, Yields result := by
  induction scripts with
  | nil => exact fun _ _ hmem => by cases hmem
  | cons script scripts ih =>
    obtain ⟨hscript, hrest⟩ := List.forall_mem_cons.1 h
    refine fun self => List.forall_mem_cons.2 ⟨poll_yields ?_ self, ih hrest _⟩
    intro answers hanswers
    obtain ⟨moment, hmoment, rfl⟩ := List.mem_map.1 hanswers
    exact hscript moment hmoment

theorem run_follows {scripts : List (List (Moment Number))}
    (h : ∀ script ∈ scripts, ∀ moment ∈ script, moment.Ticks) :
    ∀ self : GasPriceStream, Follows toWei self (self.after toWei scripts)
      (self.prices toWei scripts) (self.outcomes toWei scripts) := by
  induction scripts with
  | nil => exact Follows.refl
  | cons script scripts ih =>
    obtain ⟨hscript, hrest⟩ := List.forall_mem_cons.1 h
    exact fun self => (poll_follows hscript self).trans (ih hrest _)

/-! ### The length of a poll -/

/-- The number of iterations up to the next return, at most. -/
def steps (self : GasPriceStream) : Nat :=
  match self.state with
  | .yield none => 4
  | .initial => 3
  | .waitingForResponse => 2
  | .yield (some _) => 1

theorem body_steps (self : GasPriceStream) (answers : Answers) :
    (body self answers).Sat (fun self' => self'.steps + 1 = self.steps)
      (fun self' _ => self'.pending = []) := by
  obtain ⟨state, speed, lastPrice⟩ := self
  cases state with
  | initial => exact tryReady_sat (fun _ _ => rfl) (fun _ => rfl) fun a _ => by cases a <;> rfl
  | waitingForResponse =>
    unfold body
    dsimp only
    split <;> rfl
  | yield price => cases price <;> rfl

/-- A poll with enough answers returns the price that it has. -/
theorem pending_poll {script : List (Moment Number)} :
    ∀ {self : GasPriceStream}, self.steps ≤ script.length →
      (self.pollMoments toWei script).1.pending = [] := by
  unfold pollMoments poll
  simp only [run_map]
  induction script with
  | nil =>
    intro self h
    obtain ⟨state, speed, lastPrice⟩ := self
    cases state with
    | yield price => cases price <;> cases h
    | _ => cases h
  | cons moment script ih =>
    intro self h
    have hstep := body_steps self (moment.answers toWei)
    rw [run]
    cases hflow : body self (moment.answers toWei) with
    | next self' =>
      rw [hflow, Flow.sat_next] at hstep
      rw [List.length_cons] at h
      exact ih (by omega)
    | ret self' result =>
      rw [hflow] at hstep
      exact hstep

theorem steps_le (self : GasPriceStream) : self.steps ≤ 4 := by
  unfold steps
  split <;> decide

theorem steps_pos (self : GasPriceStream) : 0 < self.steps := by
  unfold steps
  split <;> decide

/-- The interval ticks and the oracle answers. -/
def Moment.Answered (self : Moment Number) : Prop :=
  self.interval = .ok (.ready (some ())) ∧ self.outcome.isSome

theorem body_answered (self : GasPriceStream) {moment : Moment Number} (h : moment.Answered) :
    (body self (moment.answers toWei)).Sat (fun _ => True)
      fun _ result => ∃ price, result = .ok (.ready (some price)) := by
  obtain ⟨hinterval, houtcome⟩ := h
  obtain ⟨outcome, houtcome⟩ := Option.isSome_iff_exists.1 houtcome
  unfold body Moment.answers
  rw [hinterval, houtcome]
  split
  · trivial
  · split
    · rename_i hresponse
      exact absurd hresponse (response_ne_notReady outcome)
    · trivial
    · trivial
  · trivial
  · rename_i price _
    exact ⟨price, rfl⟩

/-- When the interval ticks and the oracle answers, a poll sends its request and returns the
price. -/
theorem poll_answered {script : List (Moment Number)} (h : ∀ moment ∈ script, moment.Answered)
    {self : GasPriceStream} (hsteps : self.steps ≤ script.length) :
    ∃ price, (self.pollMoments toWei script).2 = .ok (.ready (some price)) := by
  unfold pollMoments poll
  refine run_returns (P := fun _ => True)
    (Q := fun _ (result : Poll (Option UInt64)) => ∃ price, result = .ok (.ready (some price)))
    (fun t => t.steps - 1) (script.map (Moment.answers toWei)) self ?_ trivial ?_
  · intro answers hanswers t _
    obtain ⟨moment, hmoment, rfl⟩ := List.mem_map.1 hanswers
    refine ((body_answered t (h moment hmoment)).and (body_steps t _)).imp
      (fun t' ht' => ⟨trivial, ?_⟩) fun _ _ hreturned => hreturned.1
    have hpos := steps_pos t'
    have hstep := ht'.2
    omega
  · have hpos := steps_pos self
    rw [List.length_map]
    omega

theorem results_answered (scripts : List (List (Moment Number))) :
    ∀ self : GasPriceStream, List.Forall₂
      (fun script result => 4 ≤ script.length → (∀ moment ∈ script, Moment.Answered moment) →
        ∃ price, result = .ok (.ready (some price)))
      scripts (self.results toWei scripts) := by
  induction scripts with
  | nil => exact fun _ => .nil
  | cons script scripts ih =>
    exact fun self => .cons (fun hlength h => poll_answered h ((steps_le self).trans hlength))
      (ih _)

/-- After polls with enough answers, no price is left to return. -/
theorem pending_after {scripts : List (List (Moment Number))} {self : GasPriceStream}
    (hself : self.pending = []) (h : ∀ script ∈ scripts, 4 ≤ script.length) :
    (self.after toWei scripts).pending = [] := by
  induction scripts generalizing self with
  | nil => exact hself
  | cons script scripts ih =>
    obtain ⟨hscript, hrest⟩ := List.forall_mem_cons.1 h
    exact ih (pending_poll ((steps_le self).trans hscript)) hrest

/-- The prices of a run, for every default price and speed and every sequence of outcomes,
with any number of polls that are not ready between them.  The stream does not fail
or end.  It has one price for every outcome, in order: the last one that an outcome had up
to then, or the default price.  A price that is still to be returned is one that the
script of the last poll has cut off: with answers for four iterations none is.  With as many
answers, and every one of them ready, a poll sends a request and returns its price. -/
theorem prices_fall_back (toWei : Number → UInt64) (node : NodeConfig)
    (scripts : List (List (Moment Number)))
    (hticks : ∀ script ∈ scripts, ∀ moment ∈ script, moment.Ticks) :
    let stream := newWithRetriever node
    let outcomes := stream.outcomes toWei scripts
    let prices := stream.prices toWei scripts ++ (stream.after toWei scripts).pending
    (∀ result ∈ stream.results toWei scripts, Yields result) ∧
      List.Forall₂
        (fun script result => 4 ≤ script.length → (∀ moment ∈ script, Moment.Answered moment) →
          ∃ price, result = .ok (.ready (some price)))
        scripts (stream.results toWei scripts) ∧
      ((∀ script ∈ scripts, 4 ≤ script.length) → (stream.after toWei scripts).pending = []) ∧
      prices.length = outcomes.length ∧
      ∀ i (h : i < prices.length), prices[i]
        = ((outcomes.take (i + 1)).filterMap (·.price toWei node.gasPriceSpeed)).getLast?.getD
          node.defaultGasPrice := by
  intro stream outcomes prices
  have hfollows := @run_follows _ toWei scripts hticks stream
  have hprices : prices
      = mostRecent node.defaultGasPrice (outcomes.map (·.price toWei node.gasPriceSpeed)) :=
    hfollows.prices
  refine ⟨results_yield hticks stream, results_answered scripts stream, pending_after rfl, ?_,
    ?_⟩
  · rw [hprices, length_mostRecent, List.length_map]
  · intro i h
    have hi : i < (mostRecent node.defaultGasPrice
        (outcomes.map (·.price toWei node.gasPriceSpeed))).length := hprices ▸ h
    calc prices[i]
        = (mostRecent node.defaultGasPrice
            (outcomes.map (·.price toWei node.gasPriceSpeed)))[i] := by simp only [hprices]
      _ = recent node.defaultGasPrice
            ((outcomes.map (·.price toWei node.gasPriceSpeed)).take (i + 1)) :=
          getElem_mostRecent hi
      _ = _ := by
          rw [recent_eq_getLast, ← List.map_take, List.reduceOption, List.filterMap_map]
          rfl

/-- A node with an oracle. -/
def oracleNode : NodeConfig := ⟨0xA, 0, some "https://gas.price", .fast, 15⟩

/-- The interval ticks, and a request waits for a poll before it ends. -/
def requestMoments (outcome : OracleOutcome UInt64) : List (List (Moment UInt64)) :=
  let tick := .ok (.ready (some ()))
  [[⟨tick, none⟩, ⟨tick, none⟩, ⟨tick, none⟩, ⟨tick, none⟩],
    [⟨tick, some outcome⟩, ⟨tick, none⟩, ⟨tick, none⟩, ⟨tick, none⟩]]

theorem prices_fall_back_twice :
    let scripts := requestMoments .notJson ++
      requestMoments (.object fun key => if key = "fast" then some (.number 20) else none) ++
      requestMoments .timeout
    (∀ result ∈ (newWithRetriever oracleNode).results id scripts, Yields result) ∧
      (newWithRetriever oracleNode).prices id scripts = [15, 20, 20] := by
  intro scripts
  have hticks : ∀ script ∈ scripts, ∀ moment ∈ script, moment.Ticks := by
    intro script hscript moment hmoment
    refine .inr ?_
    simp only [scripts, requestMoments, List.mem_append, List.mem_cons, List.not_mem_nil,
      or_false] at hscript
    rcases hscript with ((rfl | rfl) | rfl | rfl) | rfl | rfl <;>
      simp only [List.mem_cons, List.not_mem_nil, or_false] at hmoment <;>
      rcases hmoment with rfl | rfl | rfl | rfl <;> rfl
  exact ⟨(prices_fall_back id oracleNode scripts hticks).1, by decide +kernel⟩

end GasPriceStream

end PoaBridge
