import PoaBridge.Types

/-!
# The stream of confirmed logs

`LogStream` of `bridge/src/api.rs`.  The stream waits for its interval, asks
for the best block number, takes the confirmed part of the chain that it has
not read yet, and asks for the logs of that part.

`body` is one iteration of the loop in `LogStream::poll`, and `poll` is the
call.  An answer to `eth_getLogs` is a function of the request, so that what a
node promises about its answers is a statement about the answer alone.

The results are in three groups.

* The invariant.  `Inv` says what the two states that carry data hold.
* The specification of one call.  `poll_spec` is the only fact that the relays
  use: a call either emits nothing and keeps its `position`, or it emits the
  next item.
* Whole runs.  `polls` collects the items of a sequence of calls, and
  `polls_partition` says that they cut the confirmed chain into adjacent
  pieces.
-/

namespace PoaBridge

open PollLoop

/-- `LogStreamItem`: all the logs of the inclusive range of blocks. -/
structure LogStreamItem where
  fromBlock : UInt64
  toBlock : UInt64
  logs : List Log
deriving DecidableEq, Repr

/-- `LogStreamState`.  The future of a request is in flight while the state
lasts; its answer comes from the script. -/
inductive LogStreamState where
  | wait
  | fetchBlockNumber
  | fetchLogs (fromBlock toBlock : UInt64)
  | nextItem (item : Option LogStreamItem)
deriving DecidableEq, Repr

/-- `LogStreamInit`.  The two durations only shape when answers arrive. -/
structure LogStreamInit where
  after : UInt64
  filter : Filter
  confirmations : UInt64

structure LogStream where
  state : LogStreamState
  after : UInt64
  filter : Filter
  confirmations : UInt64
deriving DecidableEq, Repr

/-- `log_stream`. -/
def logStream (init : LogStreamInit) : LogStream where
  state := .wait
  after := init.after
  filter := init.filter
  confirmations := init.confirmations

namespace LogStream

/-- What the interval and the node answer in one iteration. -/
structure Answers where
  interval : Poll (Option Unit)
  blockNumber : Poll U256
  logs : Filter → UInt64 → UInt64 → Poll (List Log)

/-- The last block with enough confirmations, for a reported best block. -/
def lastConfirmedBlock (self : LogStream) (blockNumber : U256) : UInt64 :=
  saturatingSub (lowU64 blockNumber) self.confirmations

/-- One iteration of the loop in `LogStream::poll`. -/
def body (self : LogStream) (answers : Answers) :
    Flow LogStream (Poll (Option LogStreamItem)) :=
  match self.state with
  | .wait =>
    tryStream self answers.interval fun _ =>
      .next { self with state := .fetchBlockNumber }
  | .fetchBlockNumber =>
    tryReady self answers.blockNumber fun blockNumber =>
      let toBlock := self.lastConfirmedBlock blockNumber
      if self.after < toBlock then
        .next { self with state := .fetchLogs (self.after + 1) toBlock }
      else
        .next { self with state := .wait }
  | .fetchLogs fromBlock toBlock =>
    tryReady self (answers.logs self.filter fromBlock toBlock) fun logs =>
      .next { self with
        after := toBlock
        state := .nextItem (some ⟨fromBlock, toBlock, logs⟩) }
  | .nextItem none => .next { self with state := .wait }
  | .nextItem (some item) =>
    .ret { self with state := .nextItem none } (.ok (.ready (some item)))

/-- `LogStream::poll`. -/
def poll (self : LogStream) (script : List Answers) :
    LogStream × Poll (Option LogStreamItem) :=
  run body (.ok .notReady) self script

/-! ## The invariant -/

/-- Where the next item starts: the last block that earlier items cover.  It
is `after`, except between the answer of `eth_getLogs` and the return of the
item. -/
def position (self : LogStream) : Nat :=
  match self.state with
  | .nextItem (some item) => item.fromBlock.toNat - 1
  | _ => self.after.toNat

/-- The blocks up to `toBlock` had the configured confirmations when some
answer reported the best block. -/
def Confirmed (A : Answers → Prop) (confirmations toBlock : UInt64) : Prop :=
  ∃ answers blockNumber, A answers ∧ answers.blockNumber = .ok (.ready blockNumber) ∧
    toBlock.toNat + confirmations.toNat ≤ blockNumber.toNat

/-- What holds of every item the stream emits: its range is not empty, the
range was confirmed, and its logs are the answer to the request for exactly
that range. -/
structure Delivered (A : Answers → Prop) (filter : Filter) (confirmations : UInt64)
    (item : LogStreamItem) : Prop where
  range : item.fromBlock ≤ item.toBlock
  confirmed : Confirmed A confirmations item.toBlock
  answered : ∃ answers, A answers ∧
    answers.logs filter item.fromBlock item.toBlock = .ok (.ready item.logs)

/-- The invariant of the loop, for answers that all satisfy `A`. -/
def Inv (A : Answers → Prop) (self : LogStream) : Prop :=
  match self.state with
  | .fetchLogs fromBlock toBlock =>
    fromBlock.toNat = self.after.toNat + 1 ∧ fromBlock ≤ toBlock ∧
      Confirmed A self.confirmations toBlock
  | .nextItem (some item) =>
    Delivered A self.filter self.confirmations item ∧ item.toBlock = self.after ∧
      0 < item.fromBlock.toNat
  | _ => True

theorem inv_logStream (A : Answers → Prop) (init : LogStreamInit) :
    (logStream init).Inv A := trivial

theorem Confirmed.mono {A B : Answers → Prop} (hAB : ∀ answers, A answers → B answers)
    {confirmations toBlock : UInt64} (h : Confirmed A confirmations toBlock) :
    Confirmed B confirmations toBlock := by
  obtain ⟨answers, blockNumber, hA, hrest⟩ := h
  exact ⟨answers, blockNumber, hAB answers hA, hrest⟩

/-- The invariant only asks that there were such answers. -/
theorem Inv.mono {A B : Answers → Prop} (hAB : ∀ answers, A answers → B answers)
    {self : LogStream} (h : self.Inv A) : self.Inv B := by
  rcases self with ⟨_ | _ | ⟨fromBlock, toBlock⟩ | (_ | item), after, filter, confirmations⟩
  · trivial
  · trivial
  · exact ⟨h.1, h.2.1, h.2.2.mono hAB⟩
  · trivial
  · obtain ⟨answers, hA, hanswer⟩ := h.1.answered
    exact ⟨⟨h.1.range, h.1.confirmed.mono hAB, answers, hAB answers hA, hanswer⟩, h.2⟩

/-- The addition in `FetchBlockNumber` is behind the comparison, so it does
not overflow. -/
theorem after_add_one_toNat {a b : UInt64} (h : a < b) : (a + 1).toNat = a.toNat + 1 := by
  rw [UInt64.lt_iff_toNat_lt] at h
  have hb := b.toNat_lt
  rw [UInt64.toNat_add, UInt64.toNat_one]
  omega

/-- A range that the stream asks for ends at a confirmed block. -/
theorem lastConfirmedBlock_add_le {self : LogStream} {blockNumber : U256}
    (h : self.after < self.lastConfirmedBlock blockNumber) :
    (self.lastConfirmedBlock blockNumber).toNat + self.confirmations.toNat
      ≤ blockNumber.toNat := by
  rw [UInt64.lt_iff_toNat_lt, lastConfirmedBlock, saturatingSub_toNat] at h
  have hlow := lowU64_toNat_le blockNumber
  rw [lastConfirmedBlock, saturatingSub_toNat]
  omega

/-! ## One call -/

/-- What a call establishes, from a stream at `position`: it keeps the filter
and the confirmations, and it either emits the next item or stays where it
is. -/
def Post (A : Answers → Prop) (start : LogStream) (self : LogStream) :
    Poll (Option LogStreamItem) → Prop := fun result =>
  self.Inv A ∧ self.filter = start.filter ∧ self.confirmations = start.confirmations ∧
    match result with
    | .ok (.ready (some item)) =>
      Delivered A start.filter start.confirmations item ∧
        item.fromBlock.toNat = start.position + 1 ∧ self.position = item.toBlock.toNat ∧
        self.state = .nextItem none ∧ self.after = item.toBlock
    | _ => self.position = start.position

/-- What every iteration keeps. -/
def Kept (A : Answers → Prop) (start self : LogStream) : Prop :=
  self.Inv A ∧ self.filter = start.filter ∧ self.confirmations = start.confirmations ∧
    self.position = start.position

theorem body_sat {A : Answers → Prop} {start self : LogStream} {answers : Answers}
    (hA : A answers) (h : Kept A start self) :
    (self.body answers).Sat (Kept A start) (Post A start) := by
  obtain ⟨hinv, hfilter, hconf, hpos⟩ := h
  rcases self with ⟨state, after, filter, confirmations⟩
  dsimp only at hfilter hconf
  subst hfilter hconf
  cases state with
  | wait =>
    refine tryStream_sat ?_ ?_ ?_ ?_
    · exact fun _ _ => ⟨hinv, rfl, rfl, hpos⟩
    · exact fun _ => ⟨hinv, rfl, rfl, hpos⟩
    · exact fun _ => ⟨hinv, rfl, rfl, hpos⟩
    · exact fun _ _ => ⟨trivial, rfl, rfl, hpos⟩
  | fetchBlockNumber =>
    refine tryReady_sat ?_ ?_ ?_
    · exact fun _ _ => ⟨hinv, rfl, rfl, hpos⟩
    · exact fun _ => ⟨hinv, rfl, rfl, hpos⟩
    · intro blockNumber hanswer
      dsimp only
      split
      · rename_i hlt
        have hadd := after_add_one_toNat hlt
        refine ⟨⟨hadd, ?_, answers, blockNumber, hA, hanswer, ?_⟩, rfl, rfl, hpos⟩
        · rw [UInt64.le_iff_toNat_le, hadd]
          exact UInt64.lt_iff_toNat_lt.1 hlt
        · exact lastConfirmedBlock_add_le hlt
      · exact ⟨trivial, rfl, rfl, hpos⟩
  | fetchLogs fromBlock toBlock =>
    refine tryReady_sat ?_ ?_ ?_
    · exact fun _ _ => ⟨hinv, rfl, rfl, hpos⟩
    · exact fun _ => ⟨hinv, rfl, rfl, hpos⟩
    · intro logs hanswer
      obtain ⟨hfrom, hrange, hconfirmed⟩ := hinv
      have hfrom' : fromBlock.toNat = after.toNat + 1 := hfrom
      have hafter : after.toNat = start.position := hpos
      have hpositive : 0 < fromBlock.toNat := by omega
      have hposition : fromBlock.toNat - 1 = start.position := by omega
      exact ⟨⟨⟨hrange, hconfirmed, answers, hA, hanswer⟩, rfl, hpositive⟩, rfl, rfl,
        hposition⟩
  | nextItem item =>
    cases item with
    | none => exact ⟨trivial, rfl, rfl, hpos⟩
    | some item =>
      obtain ⟨hdelivered, hto, hpositive⟩ := hinv
      have hfrom : item.fromBlock.toNat - 1 = start.position := hpos
      have hto' : item.toBlock = after := hto
      refine ⟨trivial, rfl, rfl, hdelivered, by omega, ?_, rfl, hto'.symm⟩
      exact congrArg UInt64.toNat hto'.symm

/-- The specification of `LogStream::poll`. -/
theorem poll_spec {A : Answers → Prop} {self : LogStream} {script : List Answers}
    (hscript : ∀ answers ∈ script, A answers) (hinv : self.Inv A) :
    Post A self (self.poll script).1 (self.poll script).2 := by
  refine run_sat (P := Kept A self) ?_ script self ?_ ⟨hinv, rfl, rfl, rfl⟩
  · exact fun s hs => ⟨hs.1, hs.2.1, hs.2.2.1, hs.2.2.2⟩
  · exact fun answers hmem t ht => body_sat (hscript answers hmem) ht

/-! ## Runs -/

/-- The item a call returned, if any. -/
def emitted : Poll (Option LogStreamItem) → List LogStreamItem
  | .ok (.ready (some item)) => [item]
  | _ => []

/-- A sequence of calls: the stream after it and the items it emitted. -/
def polls (self : LogStream) (scripts : List (List Answers)) :
    LogStream × List LogStreamItem :=
  scripts.foldl (fun acc script =>
    let result := acc.1.poll script
    (result.1, acc.2 ++ emitted result.2)) (self, [])

/-- An item that has been fetched and not been returned yet. -/
def fetched (self : LogStream) : List LogStreamItem :=
  match self.state with
  | .nextItem (some item) => [item]
  | _ => []

/-- The items follow each other without a gap and without an overlap, and the
first one starts right after `start`. -/
def Contiguous : Nat → List LogStreamItem → Prop
  | _, [] => True
  | start, item :: items =>
    item.fromBlock.toNat = start + 1 ∧ Contiguous item.toBlock.toNat items

/-- The last block that the items cover. -/
def lastBlock (start : UInt64) (items : List LogStreamItem) : UInt64 :=
  (items.getLast?.map LogStreamItem.toBlock).getD start

@[simp] theorem lastBlock_append_singleton (start : UInt64) (items : List LogStreamItem)
    (item : LogStreamItem) : lastBlock start (items ++ [item]) = item.toBlock := by
  simp [lastBlock]

theorem lastBlock_cons (start : UInt64) (head : LogStreamItem) (items : List LogStreamItem) :
    lastBlock start (head :: items) = lastBlock head.toBlock items := by
  rw [lastBlock, lastBlock, List.getLast?_cons]
  cases items.getLast? <;> rfl

theorem contiguous_append_singleton {start : UInt64} {items : List LogStreamItem}
    {item : LogStreamItem} (h : Contiguous start.toNat items)
    (hitem : item.fromBlock.toNat = (lastBlock start items).toNat + 1) :
    Contiguous start.toNat (items ++ [item]) := by
  induction items generalizing start with
  | nil => exact ⟨hitem, trivial⟩
  | cons head items ih =>
    rw [lastBlock_cons] at hitem
    exact ⟨h.1, ih h.2 hitem⟩

/-- The invariant of a sequence of calls. -/
structure PollsInv (A : Answers → Prop) (init : LogStreamInit)
    (acc : LogStream × List LogStreamItem) : Prop where
  inv : acc.1.Inv A
  filter : acc.1.filter = init.filter
  confirmations : acc.1.confirmations = init.confirmations
  contiguous : Contiguous init.after.toNat acc.2
  delivered : ∀ item ∈ acc.2, Delivered A init.filter init.confirmations item
  position : acc.1.position = (lastBlock init.after acc.2).toNat

theorem pollsInv_step {A : Answers → Prop} {init : LogStreamInit}
    {acc : LogStream × List LogStreamItem} {script : List Answers}
    (hscript : ∀ answers ∈ script, A answers) (h : PollsInv A init acc) :
    PollsInv A init ((acc.1.poll script).1, acc.2 ++ emitted (acc.1.poll script).2) := by
  have hpost := poll_spec hscript h.inv
  generalize acc.1.poll script = result at hpost ⊢
  obtain ⟨hinv, hfilter, hconf, hresult⟩ := hpost
  have hfilter' := hfilter.trans h.filter
  have hconf' := hconf.trans h.confirmations
  rcases result with ⟨s, e | _ | _ | item⟩
  case ok.ready.some =>
    obtain ⟨hdelivered, hfrom, hposition, -, -⟩ := hresult
    rw [h.filter, h.confirmations] at hdelivered
    rw [h.position] at hfrom
    refine ⟨hinv, hfilter', hconf', contiguous_append_singleton h.contiguous hfrom, ?_, ?_⟩
    · intro x hx
      rcases List.mem_append.1 hx with hx | hx
      · exact h.delivered x hx
      · rw [List.mem_singleton.1 hx]
        exact hdelivered
    · rw [show emitted (.ok (.ready (some item))) = [item] from rfl,
        lastBlock_append_singleton]
      exact hposition
  all_goals
    refine ⟨hinv, hfilter', hconf', ?_, ?_, ?_⟩
    · simpa [emitted] using h.contiguous
    · simpa [emitted] using h.delivered
    · simpa [emitted] using hresult.trans h.position

theorem pollsInv_polls {A : Answers → Prop} (init : LogStreamInit)
    (scripts : List (List Answers)) (hscripts : ∀ script ∈ scripts, ∀ a ∈ script, A a) :
    PollsInv A init ((logStream init).polls scripts) := by
  refine List.foldlRecOn scripts _ (motive := PollsInv A init) ?_ ?_
  · exact ⟨inv_logStream A init, rfl, rfl, trivial, by simp, rfl⟩
  · exact fun acc hacc script hmem => pollsInv_step (hscripts script hmem) hacc

/-- `after` is the end of the last fetched item, returned or not. -/
theorem PollsInv.after_eq {A : Answers → Prop} {init : LogStreamInit}
    {acc : LogStream × List LogStreamItem} (h : PollsInv A init acc) :
    acc.1.after = lastBlock init.after (acc.2 ++ acc.1.fetched) := by
  obtain ⟨⟨state, after, filter, confirmations⟩, items⟩ := acc
  have hpos := h.position
  have hinv := h.inv
  rcases state with _ | _ | ⟨_, _⟩ | (_ | item)
  case nextItem.some =>
    simp only [fetched, lastBlock_append_singleton]
    exact hinv.2.1.symm
  all_goals
    simp only [fetched, List.append_nil]
    exact UInt64.toNat_inj.1 hpos

/-- The emitted items partition the confirmed chain: for every sequence of
calls and every answers, the first item starts right after the initial block,
each next one right after the previous, every item is a non-empty range of
blocks that were confirmed at a reported block number, its logs are the answer
for exactly that range, and `after` is the end of the last fetched item.  The
`u64` operations that lead to the next request do not wrap. -/
theorem polls_partition (init : LogStreamInit) (scripts : List (List Answers)) :
    let stream := ((logStream init).polls scripts).1
    let items := ((logStream init).polls scripts).2
    Contiguous init.after.toNat items ∧
    (∀ item ∈ items,
      Delivered (· ∈ scripts.flatten) init.filter init.confirmations item) ∧
    stream.after = lastBlock init.after (items ++ stream.fetched) ∧
    (∀ blockNumber, (stream.lastConfirmedBlock blockNumber).toNat
      = (lowU64 blockNumber).toNat - init.confirmations.toNat) ∧
    (∀ blockNumber, stream.after < stream.lastConfirmedBlock blockNumber →
      (stream.after + 1).toNat = stream.after.toNat + 1) := by
  have h : PollsInv (· ∈ scripts.flatten) init ((logStream init).polls scripts) :=
    pollsInv_polls init scripts fun script hs a ha =>
      List.mem_flatten.2 ⟨script, hs, ha⟩
  refine ⟨h.contiguous, h.delivered, h.after_eq, ?_, ?_⟩
  · intro blockNumber
    rw [lastConfirmedBlock, saturatingSub_toNat, h.confirmations]
  · exact fun _ hlt => after_add_one_toNat hlt

end LogStream

end PoaBridge
