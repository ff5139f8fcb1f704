import PoaBridge.Lib.Runs
import PoaBridge.Relay

/-!
# Following a chain

A `LogStream` together with the chain that it follows.  The blocks of the chain
are given once and for all, and `best` is how many of them there are so far.

There are three groups.

* What the node promises.  An `Exact` node reports no block that is not there
  yet, and of the blocks that are there it returns the matching logs, all of them
  and in order.  It may fail, it may answer late, and the number that it reports
  may fall.
* Safety.  `Reads` is the invariant: what the stream has delivered are the
  matching logs of the blocks up to its position, and the position stays behind
  the confirmations.  `reads_poll` is the case of a call.
* Progress.  A node that is `Prompt` answers every request at once.  `poll_rest`
  says that a call then comes to rest, and `poll_rested` that a call from there
  reads all that has been confirmed.
-/

namespace PoaBridge

open PollLoop LogStream Spec

/-- The answers of a node that knows the blocks up to `best`. -/
structure Exact (chain : Nat → List Log) (best : Nat) (answers : Answers) : Prop where
  blockNumber : ∀ n, answers.blockNumber = .ok (.ready n) → n.toNat ≤ best
  logs : ∀ filter fromBlock toBlock logs,
    answers.logs filter fromBlock toBlock = .ok (.ready logs) → toBlock.toNat ≤ best →
    logs = matchingLogs chain filter fromBlock.toNat toBlock.toNat

/-- A stream, what it has delivered, and how far the chain has got. -/
structure Following where
  stream : LogStream
  delivered : List Log
  best : Nat

namespace Following

inductive Event where
  /-- The chain grows. -/
  | mined (blocks : Nat)
  | polled (script : List Answers)

def start (init : LogStreamInit) (best : Nat) : Following := ⟨logStream init, [], best⟩

def poll (self : Following) (script : List Answers) : Following where
  stream := (self.stream.poll script).1
  delivered := self.delivered ++ (emitted (self.stream.poll script).2).flatMap (·.logs)
  best := self.best

def step (self : Following) : Event → Following
  | .mined blocks => { self with best := self.best + blocks }
  | .polled script => self.poll script

def run (self : Following) (events : List Event) : Following := events.foldl step self

/-- The node is exact whenever it is asked. -/
def Allowed (chain : Nat → List Log) (self : Following) : Event → Prop
  | .mined _ => True
  | .polled script => ∀ answers ∈ script, Exact chain self.best answers

/-! ## Safety -/

/-- The last block that has the confirmations, or the block after which the
stream started. -/
def confirmed (init : LogStreamInit) (best : Nat) : Nat :=
  max init.after.toNat (best - init.confirmations.toNat)

/-- The blocks that are asked for, and the item that is not returned yet. -/
def Requested (chain : Nat → List Log) (init : LogStreamInit) (best : Nat)
    (stream : LogStream) : Prop :=
  match stream.state with
  | .fetchLogs fromBlock toBlock =>
    fromBlock.toNat = stream.after.toNat + 1 ∧ fromBlock ≤ toBlock ∧
      toBlock.toNat ≤ best - init.confirmations.toNat
  | .nextItem (some item) =>
    item.logs = matchingLogs chain init.filter item.fromBlock.toNat item.toBlock.toNat ∧
      0 < item.fromBlock.toNat ∧ item.fromBlock ≤ item.toBlock ∧ item.toBlock = stream.after ∧
      item.toBlock.toNat ≤ best - init.confirmations.toNat
  | _ => True

/-- The invariant of the stream alone, at a position. -/
structure Follows (chain : Nat → List Log) (init : LogStreamInit) (best position : Nat)
    (stream : LogStream) : Prop where
  filter_eq : stream.filter = init.filter
  confirmations_eq : stream.confirmations = init.confirmations
  requested : Requested chain init best stream
  position_eq : stream.position = position
  le_confirmed : position ≤ confirmed init best

/-- What a call establishes: it keeps the position, or it returns the logs up to
the new one. -/
def Polled (chain : Nat → List Log) (init : LogStreamInit) (best position : Nat)
    (stream : LogStream) (result : Poll (Option LogStreamItem)) : Prop :=
  match result with
  | .ok (.ready (some item)) =>
    Follows chain init best item.toBlock.toNat stream ∧ position ≤ item.toBlock.toNat ∧
      item.logs = matchingLogs chain init.filter (position + 1) item.toBlock.toNat ∧
      stream.state = .nextItem none
  | _ => Follows chain init best position stream

section Poll

variable {chain : Nat → List Log} {init : LogStreamInit} {best position : Nat}

theorem body_sat {stream : LogStream} {answers : Answers} (hexact : Exact chain best answers)
    (h : Follows chain init best position stream) :
    (stream.body answers).Sat (Follows chain init best position)
      (Polled chain init best position) := by
  obtain ⟨hfilter, hconf, hrequested, hposition, hle⟩ := h
  rcases stream with ⟨state, after, filter, confirmations⟩
  dsimp only at hfilter hconf
  subst hfilter hconf
  cases state with
  | wait =>
    refine tryStream_sat ?_ ?_ ?_ ?_
    · exact fun _ _ => ⟨rfl, rfl, hrequested, hposition, hle⟩
    · exact fun _ => ⟨rfl, rfl, hrequested, hposition, hle⟩
    · exact fun _ => ⟨rfl, rfl, hrequested, hposition, hle⟩
    · exact fun _ _ => ⟨rfl, rfl, trivial, hposition, hle⟩
  | fetchBlockNumber =>
    refine tryReady_sat ?_ ?_ ?_
    · exact fun _ _ => ⟨rfl, rfl, hrequested, hposition, hle⟩
    · exact fun _ => ⟨rfl, rfl, hrequested, hposition, hle⟩
    · intro blockNumber hanswer
      dsimp only
      split
      · rename_i hlt
        have hadd := after_add_one_toNat hlt
        have hconfirmed := @lastConfirmedBlock_add_le
          ⟨.fetchBlockNumber, after, init.filter, init.confirmations⟩ blockNumber hlt
        have hbest := hexact.blockNumber blockNumber hanswer
        dsimp only at hconfirmed
        refine ⟨rfl, rfl, ⟨hadd, ?_, by omega⟩, hposition, hle⟩
        rw [UInt64.le_iff_toNat_le, hadd]
        exact UInt64.lt_iff_toNat_lt.1 hlt
      · exact ⟨rfl, rfl, trivial, hposition, hle⟩
  | fetchLogs fromBlock toBlock =>
    refine tryReady_sat ?_ ?_ ?_
    · exact fun _ _ => ⟨rfl, rfl, hrequested, hposition, hle⟩
    · exact fun _ => ⟨rfl, rfl, hrequested, hposition, hle⟩
    · intro logs hanswer
      obtain ⟨hfrom, hrange, hbest⟩ := hrequested
      have hfrom' : fromBlock.toNat = after.toNat + 1 := hfrom
      have hafter : after.toNat = position := hposition
      have hpositive : 0 < fromBlock.toNat := by omega
      have hposition' : fromBlock.toNat - 1 = position := by omega
      have hlogs := hexact.logs _ _ _ _ hanswer (by omega)
      exact ⟨rfl, rfl, ⟨hlogs, hpositive, hrange, rfl, hbest⟩, hposition', hle⟩
  | nextItem item =>
    cases item with
    | none => exact ⟨rfl, rfl, trivial, hposition, hle⟩
    | some item =>
      obtain ⟨hlogs, hpositive, hrange, hafter, hbest⟩ := hrequested
      have hrange' := UInt64.le_iff_toNat_le.1 hrange
      have hfrom : item.fromBlock.toNat - 1 = position := hposition
      have hafter' : item.toBlock = after := hafter
      have hstart : position + 1 = item.fromBlock.toNat := by omega
      refine ⟨⟨rfl, rfl, trivial, congrArg UInt64.toNat hafter'.symm, ?_⟩, by omega, ?_, rfl⟩
      · exact hbest.trans (Nat.le_max_right ..)
      · rw [hlogs, hstart]

theorem poll_spec {stream : LogStream} {script : List Answers}
    (hexact : ∀ answers ∈ script, Exact chain best answers)
    (h : Follows chain init best position stream) :
    Polled chain init best position (stream.poll script).1 (stream.poll script).2 :=
  run_sat (fun _ hs => hs) script stream
    (fun answers hmem _ ht => body_sat (hexact answers hmem) ht) h

end Poll

/-- The invariant: the stream has delivered the matching logs of the blocks up to
its position. -/
structure Reads (chain : Nat → List Log) (init : LogStreamInit) (s : Following) : Prop where
  follows : Follows chain init s.best s.stream.position s.stream
  after_le : init.after.toNat ≤ s.stream.position
  delivered : s.delivered
    = matchingLogs chain init.filter (init.after.toNat + 1) s.stream.position

variable {chain : Nat → List Log} {init : LogStreamInit} {self : Following}

theorem matchingLogs_empty (chain : Nat → List Log) (filter : Filter) (block : Nat) :
    matchingLogs chain filter (block + 1) block = [] := by
  rw [matchingLogs, Nat.sub_self]
  rfl

theorem reads_start (init : LogStreamInit) (best : Nat) : Reads chain init (start init best) :=
  ⟨⟨rfl, rfl, trivial, rfl, Nat.le_max_left ..⟩, le_refl init.after.toNat,
    (matchingLogs_empty ..).symm⟩

theorem Requested.mono {stream : LogStream} {best best' : Nat} (hle : best ≤ best')
    (h : Requested chain init best stream) : Requested chain init best' stream := by
  rcases stream with ⟨_ | _ | ⟨fromBlock, toBlock⟩ | (_ | item), after, filter, confirmations⟩
  · trivial
  · trivial
  · exact ⟨h.1, h.2.1, h.2.2.trans (by omega)⟩
  · trivial
  · exact ⟨h.1, h.2.1, h.2.2.1, h.2.2.2.1, h.2.2.2.2.trans (by omega)⟩

theorem reads_mined (h : Reads chain init self) (blocks : Nat) :
    Reads chain init { self with best := self.best + blocks } := by
  obtain ⟨⟨hfilter, hconf, hrequested, hposition, hle⟩, hafter, hdelivered⟩ := h
  refine ⟨⟨hfilter, hconf, hrequested.mono (by simp), hposition, hle.trans ?_⟩, hafter,
    hdelivered⟩
  unfold confirmed
  dsimp only
  omega

theorem reads_poll (h : Reads chain init self) {script : List Answers}
    (hexact : ∀ answers ∈ script, Exact chain self.best answers) :
    Reads chain init (self.poll script) ∧
      self.stream.position ≤ (self.poll script).stream.position := by
  have hpolled := Following.poll_spec hexact h.follows
  unfold Following.poll
  generalize self.stream.poll script = result at hpolled
  rcases result with ⟨stream, e | _ | _ | item⟩
  case ok.ready.some =>
    obtain ⟨hfollows, hle, hlogs, -⟩ := hpolled
    have hposition := hfollows.position_eq
    have hafter := h.after_le
    refine ⟨⟨?_, ?_, ?_⟩, by rw [hposition]; exact hle⟩
    · rw [hposition]
      exact hfollows
    · rw [hposition]
      exact hafter.trans hle
    · rw [hposition, matchingLogs_append chain init.filter (by omega) hle, ← h.delivered, ← hlogs]
      simp [emitted]
  all_goals
    have hposition := Follows.position_eq hpolled
    refine ⟨⟨?_, ?_, ?_⟩, le_of_eq hposition.symm⟩
    · rw [hposition]
      exact hpolled
    · rw [hposition]
      exact h.after_le
    · rw [hposition, ← h.delivered]
      simp [emitted]

theorem reads_run {events : List Event} (h : Reads chain init self)
    (hallowed : Runs.Along step (Allowed chain) self events) :
    Reads chain init (run self events) := by
  refine Runs.foldl_of_along ?_ events self hallowed h
  intro s event hs hevent
  cases event with
  | mined blocks => exact reads_mined hs blocks
  | polled script => exact (reads_poll hs hevent).1

/-! ## Progress -/

/-- The node answers every request at once, and it knows the best block. -/
structure Prompt (best : Nat) (answers : Answers) : Prop where
  interval : answers.interval = .ok (.ready (some ()))
  blockNumber : ∃ n, answers.blockNumber = .ok (.ready n) ∧ n.toNat = best
  logs : ∀ filter fromBlock toBlock, ∃ logs,
    answers.logs filter fromBlock toBlock = .ok (.ready logs)

theorem Prompt.lastConfirmedBlock {init : LogStreamInit} {best : Nat} (hbest : best < 2 ^ 64)
    (stream : LogStream) (hconf : stream.confirmations = init.confirmations) {n : U256}
    (hn : n.toNat = best) :
    (stream.lastConfirmedBlock n).toNat = best - init.confirmations.toNat := by
  rw [LogStream.lastConfirmedBlock, saturatingSub_toNat, hconf, lowU64, hn, UInt64.toNat_ofNat',
    Nat.mod_eq_of_lt hbest]

/-- No request is under way and no item is kept. -/
def Resting (stream : LogStream) : Prop :=
  match stream.state with
  | .fetchLogs .. | .nextItem (some _) => False
  | _ => True

/-- How many iterations are left before an item is returned. -/
def rank (stream : LogStream) : Nat :=
  match stream.state with
  | .nextItem none => 4
  | .wait => 3
  | .fetchBlockNumber => 2
  | .fetchLogs .. => 1
  | .nextItem (some _) => 0

theorem rank_lt (stream : LogStream) : rank stream < 5 := by
  unfold rank
  split <;> omega

section Prompt

variable {best : Nat} {stream : LogStream} {script : List Answers}

/-- What is under way is finished. -/
theorem resting_of_not_resting (hprompt : ∀ answers ∈ script, Prompt best answers)
    (hlength : 5 ≤ script.length) (h : ¬Resting stream) : Resting (stream.poll script).1 := by
  refine run_returns (P := fun s => ¬Resting s) (Q := fun s _ => Resting s) rank script stream ?_
    h ((rank_lt stream).trans_le hlength)
  rintro answers hmem ⟨state, after, filter, confirmations⟩ hstream
  cases state with
  | fetchLogs fromBlock toBlock =>
    obtain ⟨logs, hlogs⟩ := (hprompt answers hmem).logs filter fromBlock toBlock
    rw [body]
    dsimp only
    rw [hlogs]
    exact ⟨fun h => h, Nat.zero_lt_one⟩
  | nextItem item =>
    cases item with
    | none => exact absurd trivial hstream
    | some item => exact trivial
  | _ => exact absurd trivial hstream

/-- There is nothing new to read. -/
theorem resting_of_read (hprompt : ∀ answers ∈ script, Prompt best answers)
    (hbest : best < 2 ^ 64) (hconf : stream.confirmations = init.confirmations)
    (hread : best - init.confirmations.toNat ≤ stream.after.toNat) (h : Resting stream) :
    Resting (stream.poll script).1 ∧
      best - init.confirmations.toNat ≤ (stream.poll script).1.after.toNat := by
  have hkept := @run_sat _ _ _ body (.ok .notReady)
    (fun s => Resting s ∧ s.confirmations = init.confirmations ∧
      best - init.confirmations.toNat ≤ s.after.toNat)
    (fun s _ => Resting s ∧ s.confirmations = init.confirmations ∧
      best - init.confirmations.toNat ≤ s.after.toNat) (fun _ hs => hs) script stream ?_
    ⟨h, hconf, hread⟩
  · exact ⟨hkept.1, hkept.2.2⟩
  rintro answers hmem ⟨state, after, filter, confirmations⟩ ⟨hstream, hconf, hread⟩
  cases state with
  | wait =>
    rw [body]
    dsimp only
    rw [(hprompt answers hmem).interval]
    exact ⟨trivial, hconf, hread⟩
  | fetchBlockNumber =>
    obtain ⟨n, hanswer, hn⟩ := (hprompt answers hmem).blockNumber
    have hlast := Prompt.lastConfirmedBlock hbest
      ⟨.fetchBlockNumber, after, filter, confirmations⟩ hconf hn
    rw [body]
    dsimp only at hread ⊢
    rw [hanswer]
    dsimp only [tryReady]
    rw [if_neg]
    · exact ⟨trivial, hconf, hread⟩
    · rw [UInt64.lt_iff_toNat_lt, hlast]
      exact not_lt.2 hread
  | fetchLogs fromBlock toBlock => exact hstream.elim
  | nextItem item =>
    cases item with
    | none => exact ⟨trivial, hconf, hread⟩
    | some item => exact hstream.elim

/-- What is asked for is all that has been confirmed. -/
def Catching (init : LogStreamInit) (best : Nat) (stream : LogStream) : Prop :=
  stream.confirmations = init.confirmations ∧
    match stream.state with
    | .fetchLogs _ toBlock => toBlock.toNat = best - init.confirmations.toNat
    | .nextItem (some _) => stream.after.toNat = best - init.confirmations.toNat
    | _ => stream.after.toNat < best - init.confirmations.toNat

/-- There are confirmed blocks to read. -/
theorem resting_of_unread (hprompt : ∀ answers ∈ script, Prompt best answers)
    (hlength : 5 ≤ script.length) (hbest : best < 2 ^ 64) (h : Catching init best stream) :
    Resting (stream.poll script).1 ∧
      best - init.confirmations.toNat ≤ (stream.poll script).1.after.toNat := by
  refine run_returns (P := Catching init best)
    (Q := fun s _ => Resting s ∧ best - init.confirmations.toNat ≤ s.after.toNat) rank script
    stream ?_ h ((rank_lt stream).trans_le hlength)
  rintro answers hmem ⟨state, after, filter, confirmations⟩ ⟨hconf, hcatching⟩
  cases state with
  | wait =>
    rw [body]
    dsimp only
    rw [(hprompt answers hmem).interval]
    exact ⟨⟨hconf, hcatching⟩, Nat.lt_succ_self 2⟩
  | fetchBlockNumber =>
    obtain ⟨n, hanswer, hn⟩ := (hprompt answers hmem).blockNumber
    have hlast := Prompt.lastConfirmedBlock hbest
      ⟨.fetchBlockNumber, after, filter, confirmations⟩ hconf hn
    rw [body]
    dsimp only
    rw [hanswer]
    dsimp only [tryReady]
    rw [if_pos]
    · exact ⟨⟨hconf, hlast⟩, Nat.lt_succ_self 1⟩
    · rw [UInt64.lt_iff_toNat_lt, hlast]
      exact hcatching
  | fetchLogs fromBlock toBlock =>
    obtain ⟨logs, hlogs⟩ := (hprompt answers hmem).logs filter fromBlock toBlock
    rw [body]
    dsimp only
    rw [hlogs]
    exact ⟨⟨hconf, hcatching⟩, Nat.zero_lt_one⟩
  | nextItem item =>
    cases item with
    | none => exact ⟨⟨hconf, hcatching⟩, Nat.lt_succ_self 3⟩
    | some item => exact ⟨trivial, le_of_eq (Eq.symm hcatching)⟩

theorem position_of_resting (h : Resting stream) : stream.position = stream.after.toNat := by
  rcases stream with ⟨_ | _ | ⟨fromBlock, toBlock⟩ | (_ | item), after, filter, confirmations⟩
  case nextItem.some => exact h.elim
  all_goals rfl

/-- A call from a stream at rest reads all that has been confirmed. -/
theorem poll_rested (hprompt : ∀ answers ∈ script, Prompt best answers)
    (hlength : 5 ≤ script.length) (hbest : best < 2 ^ 64)
    (hconf : stream.confirmations = init.confirmations) (h : Resting stream) :
    Resting (stream.poll script).1 ∧
      best - init.confirmations.toNat ≤ (stream.poll script).1.after.toNat := by
  by_cases hread : best - init.confirmations.toNat ≤ stream.after.toNat
  · exact resting_of_read hprompt hbest hconf hread h
  · refine resting_of_unread hprompt hlength hbest ⟨hconf, ?_⟩
    rcases stream with ⟨_ | _ | ⟨fromBlock, toBlock⟩ | (_ | item), after, filter, confirmations⟩
    case nextItem.some => exact h.elim
    case fetchLogs => exact h.elim
    all_goals exact not_le.1 hread

/-- A call brings the stream to rest. -/
theorem poll_rest (hprompt : ∀ answers ∈ script, Prompt best answers)
    (hlength : 5 ≤ script.length) (hbest : best < 2 ^ 64)
    (hconf : stream.confirmations = init.confirmations) : Resting (stream.poll script).1 := by
  by_cases h : Resting stream
  · exact (poll_rested hprompt hlength hbest hconf h).1
  · exact resting_of_not_resting hprompt hlength h

end Prompt

/-- A log stream follows its chain, for every growth of the chain, every sequence of
calls, and every node that answers exactly when it answers.

What has been delivered are the matching logs of the blocks up to the position of the
stream, in their order and each of them once, and the position never gets ahead of
the confirmations.  From wherever the run has come to, two calls with prompt answers
deliver everything that has been confirmed. -/
theorem delivers_confirmed_logs (chain : Nat → List Log) (init : LogStreamInit) (best : Nat)
    (events : List Event)
    (hallowed : Runs.Along step (Allowed chain) (start init best) events) :
    let s := run (start init best) events
    s.delivered = matchingLogs chain init.filter (init.after.toNat + 1) s.stream.position ∧
      s.stream.position ≤ confirmed init s.best ∧
      ∀ first second : List Answers, s.best < 2 ^ 64 → 5 ≤ first.length → 5 ≤ second.length →
        (∀ answers ∈ first ++ second, Exact chain s.best answers ∧ Prompt s.best answers) →
        ((s.poll first).poll second).delivered
          = matchingLogs chain init.filter (init.after.toNat + 1) (confirmed init s.best) := by
  have hreads := reads_run (reads_start init best) hallowed
  generalize run (start init best) events = s at hreads
  refine ⟨hreads.delivered, hreads.follows.le_confirmed, ?_⟩
  intro first second hbest hfirst hsecond hanswers
  have hanswersFirst := fun a ha => hanswers a (List.mem_append_left second ha)
  have hanswersSecond := fun a ha => hanswers a (List.mem_append_right first ha)
  have hreadsFirst := (reads_poll hreads fun a ha => (hanswersFirst a ha).1).1
  have hrest : Resting (s.poll first).stream := poll_rest (fun a ha => (hanswersFirst a ha).2)
    hfirst hbest hreads.follows.confirmations_eq
  have hreadsSecond := (reads_poll hreadsFirst fun a ha => (hanswersSecond a ha).1).1
  have hcaught := poll_rested (fun a ha => (hanswersSecond a ha).2) hsecond hbest
    hreadsFirst.follows.confirmations_eq hrest
  have hposition := hreadsSecond.follows.le_confirmed
  have hafter := hreadsSecond.after_le
  have hposition' : ((s.poll first).poll second).stream.position
      = ((s.poll first).poll second).stream.after.toNat := position_of_resting hcaught.1
  have hconfirmed : ((s.poll first).poll second).stream.position = confirmed init s.best := by
    refine le_antisymm hposition (max_le hafter ?_)
    rw [hposition']
    exact hcaught.2
  rw [← hconfirmed]
  exact hreadsSecond.delivered

/-- A node that knows everything and answers at once. -/
def allKnowing (chain : Nat → List Log) (best : Nat) : Answers where
  interval := .ok (.ready (some ()))
  blockNumber := .ok (.ready (BitVec.ofNat 256 best))
  logs := fun filter fromBlock toBlock =>
    .ok (.ready (matchingLogs chain filter fromBlock.toNat toBlock.toNat))

theorem exact_allKnowing (chain : Nat → List Log) (best : Nat) :
    Exact chain best (allKnowing chain best) := by
  refine ⟨?_, ?_⟩
  · rintro n ⟨⟩
    rw [BitVec.toNat_ofNat]
    exact Nat.mod_le _ _
  · rintro filter fromBlock toBlock logs ⟨⟩ -
    rfl

theorem prompt_allKnowing (chain : Nat → List Log) {best : Nat} (hbest : best < 2 ^ 256) :
    Prompt best (allKnowing chain best) :=
  ⟨rfl, ⟨_, rfl, (BitVec.toNat_ofNat ..).trans (Nat.mod_eq_of_lt hbest)⟩, fun _ _ _ => ⟨_, rfl⟩⟩

def singleLog : Log := ⟨0xb0, [7], [], none⟩

def singleLogChain (b : Nat) : List Log := if b = 2 then [singleLog] else []

/-- The stream asks for the logs of the first block while the second one is mined. -/
def slowEvents : List Event :=
  [ .mined 2
  , .polled (List.replicate 3 (allKnowing singleLogChain 2)
      ++ [{ allKnowing singleLogChain 2 with logs := fun _ _ _ => .ok .notReady }])
  , .mined 1 ]

theorem delivers_confirmed_logs_slowEvents :
    let s := run (start ⟨0, web3Filter 7 [0xb0], 1⟩ 0) slowEvents
    let node := List.replicate 5 (allKnowing singleLogChain 3)
    s.delivered = [] ∧ ((s.poll node).poll node).delivered = [singleLog] := by
  have hslow : Exact singleLogChain 2
      { allKnowing singleLogChain 2 with logs := fun _ _ _ => .ok .notReady } :=
    ⟨(exact_allKnowing singleLogChain 2).blockNumber, fun _ _ _ _ h => by cases h⟩
  have hallowed : Runs.Along step (Allowed singleLogChain) (start ⟨0, web3Filter 7 [0xb0], 1⟩ 0)
      slowEvents := by
    refine ⟨trivial, fun answers hmem => ?_, trivial, trivial⟩
    rcases List.mem_append.1 hmem with hmem | hmem
    · rw [List.eq_of_mem_replicate hmem]
      exact exact_allKnowing singleLogChain 2
    · rw [List.mem_singleton.1 hmem]
      exact hslow
  obtain ⟨-, -, hcaught⟩ := delivers_confirmed_logs singleLogChain ⟨0, web3Filter 7 [0xb0], 1⟩ 0
    slowEvents hallowed
  refine ⟨by decide +kernel, ?_⟩
  refine (hcaught (List.replicate 5 (allKnowing singleLogChain 3))
    (List.replicate 5 (allKnowing singleLogChain 3)) (by decide) (by decide) (by decide)
    fun answers hmem => ?_).trans (by decide +kernel)
  rw [← List.replicate_add] at hmem
  rw [List.eq_of_mem_replicate hmem]
  exact ⟨exact_allKnowing singleLogChain 3, prompt_allKnowing singleLogChain (by decide)⟩

end Following

end PoaBridge
