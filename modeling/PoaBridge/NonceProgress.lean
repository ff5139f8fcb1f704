import Mathlib.Algebra.Order.BigOperators.Group.List
import Mathlib.Algebra.Order.Monoid.Unbundled.Basic
import Mathlib.Algebra.Order.Group.Nat
import Mathlib.Data.List.Perm.Subperm
import PoaBridge.NoncePool

/-!
# The futures of one account come to an end

`NonceCheck::poll` asks for a nonce and sends again whenever the node refuses the
one it has, without a limit.  Nothing in the future itself ends this: while it waits
for a nonce the others take it, and the counter that they share is set back by every
answer.

What ends it is the pool.  A nonce that is free stays free until a transaction is
accepted, and an answer of the node is free.  So every transaction that is refused
is refused because another one was accepted since its nonce was taken, or because
its nonce came from the counter, which happens once.  `Task.work` counts the
iterations and answers that a future is away from its end, with the nonces that are
free now, and an accepted transaction makes this longer for the other futures by one
round.

`futures_settle` is the result, for futures that are neither dropped nor disturbed by another
sender: the work of all of them is at most quadratic in their number, and when nothing
is left to do each of them has been accepted once.
-/

namespace PoaBridge

open PollLoop

/-! ## Free nonces -/

namespace AccountPool

/-- A transaction with the nonce would be accepted at any price. -/
def Free (self : AccountPool) (nonce : U256) : Prop :=
  self.count ≤ nonce.toNat ∧ self.find nonce = none

instance (self : AccountPool) (nonce : U256) : Decidable (self.Free nonce) :=
  inferInstanceAs (Decidable (_ ∧ _))

/-- The steps to get another nonce, for a future that holds one which is not free. -/
def round (self : AccountPool) : Option U256 → Nat
  | none => 0
  | some nonce => if self.Free nonce then 0 else 6

theorem round_le (self : AccountPool) (held : Option U256) : self.round held ≤ 6 := by
  unfold round
  grind

theorem submit_of_free {self : AccountPool} {tx : Pooled} (h : self.Free tx.nonce) :
    self.submit tx = some (self.insert tx) := by
  rw [submit, if_neg (by have := h.1; omega), h.2]

theorem submit_room {self self' : AccountPool} {tx : Pooled} (h : self.submit tx = some self') :
    self'.count + self'.pool.length ≤ self.count + self.pool.length + 1 := by
  obtain ⟨rfl, -, -⟩ := submit_eq_some h
  have := List.length_filter_le (fun p : Pooled => p.nonce ≠ tx.nonce) self.pool
  simp only [insert, List.length_cons]
  omega

/-- The pool has a transaction with the next nonce of the account, so that it can be
mined. -/
def HasNext (self : AccountPool) : Prop := ∃ tx ∈ self.pool, tx.nonce.toNat = self.count

instance (self : AccountPool) : Decidable self.HasNext :=
  inferInstanceAs (Decidable (∃ _ ∈ _, _))

theorem mine_room {self : AccountPool} (h : self.HasNext) :
    self.mine.count + self.mine.pool.length ≤ self.count + self.pool.length := by
  obtain ⟨tx, hmem, hnonce⟩ := h
  have hlt : self.mine.pool.length < self.pool.length := by
    refine List.length_filter_lt_length_iff_exists.2 ⟨tx, hmem, ?_⟩
    rw [hnonce]
    simp
  show self.count + 1 + self.mine.pool.length ≤ _
  omega

/-- A nonce that is free stays free when the transaction of another one is mined. -/
theorem Free.mine {self : AccountPool} {nonce : U256} (h : self.Free nonce)
    (hnext : self.HasNext) : self.mine.Free nonce := by
  obtain ⟨tx, hmem, hnonce⟩ := hnext
  have hne : nonce.toNat ≠ self.count := by
    intro heq
    have hsame : tx.nonce = nonce := BitVec.eq_of_toNat_eq (hnonce.trans heq.symm)
    exact not_mem_of_find h.2 (List.mem_map.2 ⟨tx, hmem, hsame⟩)
  refine ⟨by have := h.1; show self.count + 1 ≤ _; omega, ?_⟩
  refine List.find?_eq_none.2 fun p hp => ?_
  exact List.find?_eq_none.1 h.2 p (List.mem_filter.1 hp).1

theorem round_mine_le {self : AccountPool} (hnext : self.HasNext) (held : Option U256) :
    self.mine.round held ≤ self.round held := by
  cases held with
  | none => exact Nat.le_refl _
  | some nonce =>
    by_cases hfree : self.Free nonce
    · rw [round, round, if_pos hfree, if_pos (hfree.mine hnext)]
    · rw [round, round, if_neg hfree]
      split <;> omega

/-- There is a free nonce right after the nonces of the account, so what the node
answers is free. -/
theorem free_nextNonce {self : AccountPool} (h : self.count + self.pool.length < 2 ^ 256) :
    self.Free self.nextNonce := by
  have hfree : ∃ i ∈ List.range (self.pool.length + 1),
      self.find (BitVec.ofNat 256 (self.count + i)) = none := by
    by_contra htaken
    push Not at htaken
    -- otherwise all of these nonces are in the pool, and they are too many
    have hsubset : (List.range (self.pool.length + 1)).map
        (fun i => BitVec.ofNat 256 (self.count + i)) ⊆ self.pool.map Pooled.nonce := by
      intro nonce hmem
      obtain ⟨i, hi, rfl⟩ := List.mem_map.1 hmem
      obtain ⟨tx, hfind⟩ := Option.ne_none_iff_exists'.1 (htaken i hi)
      obtain ⟨htx, hnonce⟩ := mem_of_find hfind
      exact List.mem_map.2 ⟨tx, htx, hnonce⟩
    have hnodup : ((List.range (self.pool.length + 1)).map
        (fun i => BitVec.ofNat 256 (self.count + i))).Nodup := by
      refine List.Nodup.map_on ?_ List.nodup_range
      intro i hi j hj heq
      rw [List.mem_range] at hi hj
      have := congrArg BitVec.toNat heq
      rw [BitVec.toNat_ofNat, BitVec.toNat_ofNat, Nat.mod_eq_of_lt (by omega),
        Nat.mod_eq_of_lt (by omega)] at this
      omega
    have hle := (List.subperm_of_subset hnodup hsubset).length_le
    simp only [List.length_map, List.length_range] at hle
    omega
  have hsome : ((List.range (self.pool.length + 1)).find? fun i =>
      (self.find (BitVec.ofNat 256 (self.count + i))).isNone).isSome := by
    obtain ⟨i, hi, hnone⟩ := hfree
    rw [List.find?_isSome]
    exact ⟨i, hi, by rw [hnone]; rfl⟩
  obtain ⟨i, hi⟩ := Option.isSome_iff_exists.1 hsome
  have hlt := List.mem_range.1 (List.mem_of_find?_eq_some hi)
  have hnone := List.find?_some hi
  have hnext : self.nextNonce = BitVec.ofNat 256 (self.count + i) := by
    rw [nextNonce, hi]
    rfl
  rw [hnext]
  refine ⟨?_, by simpa using hnone⟩
  rw [BitVec.toNat_ofNat, Nat.mod_eq_of_lt (by omega)]
  omega

end AccountPool

/-! ## A future and its end -/

/-- The transaction up to its nonce. -/
def Transaction.content (self : Transaction) : Transaction := { self with nonce := 0 }

variable {Digest : Type}

namespace Task

/-- The request that the future waits for. -/
def awaits (self : Task Digest) : Option Request :=
  if self.finished || self.response.isSome then none else self.check.request

/-- The transaction of the future has been accepted. -/
def settled (self : Task Digest) : Bool :=
  self.finished || match self.response with
    | some (.accepted _) => true
    | _ => false

/-- The transaction that the future has had accepted. -/
def settles (self : Task Digest) : Option Transaction :=
  if self.settled then some self.check.transaction.content else none

/-- The nonce that the future is going to send, or has on its way. -/
def held (self : Task Digest) : Option U256 :=
  if self.finished then none
  else
    match self.response, self.check.state with
    | some (.transactionCount nonce), _ => some nonce
    | none, .nonce nonce => some nonce
    | none, .transactionRequest _ => some self.check.transaction.nonce
    | _, _ => none

/-- The iterations and answers that the future is away from its end, when the nonce
that it holds is free. -/
def stage (self : Task Digest) : Nat :=
  if self.finished then 0
  else
    match self.response, self.check.state with
    | some (.accepted _), _ => 1
    | none, .transactionRequest _ => 2
    | none, .nonce _ => 3
    | some (.transactionCount _), _ => 4
    | none, .nonceRequest => 5
    | none, .reacquire => 6
    | some .refused, _ => 7
    | none, .ready => 10

/-- The same with the nonces that are free now. -/
def work (account : AccountPool) (self : Task Digest) : Nat :=
  self.stage + account.round self.held

/-- The answer that waits for a future belongs to the request of its state, and the
future is one of the node. -/
structure Fits (node : NonceSystem.Node Digest) (task : Task Digest) : Prop where
  account : task.check.account = node.account
  chainId : task.check.chainId = node.chainId
  counted : ∀ nonce, task.response = some (.transactionCount nonce) →
    task.check.state = .nonceRequest
  accepted : ∀ hash, task.response = some (.accepted hash) →
    ∃ raw, task.check.state = .transactionRequest raw
  refused : task.response = some .refused → ∃ raw, task.check.state = .transactionRequest raw

theorem fits_of_response_none {node : NonceSystem.Node Digest} {task : Task Digest}
    (haccount : task.check.account = node.account) (hchainId : task.check.chainId = node.chainId)
    (hresponse : task.response = none) : Fits node task := by
  refine ⟨haccount, hchainId, fun nonce h => ?_, fun hash h => ?_, fun h => ?_⟩
  all_goals
    rw [hresponse] at h
    cases h

/-- A transaction that is accepted takes a nonce, which makes one more round for a future
that holds it. -/
theorem work_le (account account' : AccountPool) (self : Task Digest) :
    self.work account' ≤ self.work account + 6 := by
  have := account'.round_le self.held
  unfold work
  omega

/-- A transaction that is mined makes no work. -/
theorem work_mine_le {account : AccountPool} (h : account.HasNext) (self : Task Digest) :
    self.work account.mine ≤ self.work account :=
  Nat.add_le_add_left (AccountPool.round_mine_le h self.held) _

/-- A future that holds a nonce is not accepted yet. -/
theorem two_le_stage_of_held {self : Task Digest} {nonce : U256} (h : self.held = some nonce) :
    2 ≤ self.stage := by
  unfold held at h
  unfold stage
  grind

theorem two_le_stage_of_awaits {self : Task Digest} {request : Request}
    (h : self.awaits = some request) : 2 ≤ self.stage := by
  unfold awaits NonceCheck.request at h
  unfold stage
  grind

/-- Whether a future has its answer does not depend on the account. -/
theorem two_le_work_iff (account : AccountPool) (self : Task Digest) :
    2 ≤ self.work account ↔ 2 ≤ self.stage := by
  unfold work
  cases hheld : self.held with
  | none => exact Iff.rfl
  | some nonce =>
    have := two_le_stage_of_held hheld
    omega

/-- What the node or an iteration makes of a future, without a change of the account. -/
structure Advances (node : NonceSystem.Node Digest) (account : AccountPool)
    (task next : Task Digest) : Prop where
  fits : Fits node next
  content : next.check.transaction.content = task.check.transaction.content
  settled : next.settled = task.settled
  work : next.work account < task.work account

/-- A future that does not wait makes an iteration. -/
theorem exists_advances {node : NonceSystem.Node Digest} {s : NonceSystem Digest} {i : Nat}
    {self : Task Digest}
    (hsigns : ∀ tx, ∃ raw, prepareRawTransaction node.wallet node.account node.chainId tx = .ok raw)
    (hfits : Fits node self) (hopen : self.finished = false) (hawaits : self.awaits = none) :
    ∃ counter next, NonceSystem.pollTask node s i self =
        { s with
          counter := counter
          tasks := s.tasks.set i next
          inFlight := s.inFlight ++ (next.awaits.map fun request => (i, request)).toList } ∧
      Advances node s.account self next := by
  obtain ⟨⟨state, account, tx, chainId⟩, response, finished⟩ := self
  obtain rfl : account = node.account := hfits.account
  obtain rfl : chainId = node.chainId := hfits.chainId
  obtain rfl : finished = false := hopen
  cases response with
  | none =>
    cases state with
    | ready =>
      refine ⟨s.counter + 1, ⟨⟨.nonce s.counter, _, tx, _⟩, none, false⟩, rfl, ?_⟩
      refine ⟨fits_of_response_none rfl rfl rfl, rfl, rfl, ?_⟩
      have := s.account.round_le (some s.counter)
      show 3 + s.account.round (some s.counter) < 10 + 0
      omega
    | reacquire =>
      refine ⟨s.counter, ⟨⟨.nonceRequest, _, tx, _⟩, none, false⟩, rfl, ?_⟩
      exact ⟨fits_of_response_none rfl rfl rfl, rfl, rfl, Nat.lt_succ_self 5⟩
    | nonceRequest => cases hawaits
    | nonce nonce =>
      obtain ⟨raw, hraw⟩ := hsigns { tx with nonce := nonce }
      refine ⟨s.counter, ⟨⟨.transactionRequest raw, _, { tx with nonce := nonce }, _⟩, none, false⟩,
        ?_, fits_of_response_none rfl rfl rfl, rfl, rfl, ?_⟩
      · simp only [NonceSystem.pollTask, NonceCheck.body, hraw]
        rfl
      · exact Nat.add_lt_add_right (Nat.lt_succ_self 2) (s.account.round (some nonce))
    | transactionRequest raw => cases hawaits
  | some response =>
    cases response with
    | transactionCount nonce =>
      obtain rfl : state = .nonceRequest := hfits.counted nonce rfl
      refine ⟨nonce, ⟨⟨.nonce nonce, _, tx, _⟩, none, false⟩, rfl, ?_⟩
      refine ⟨fits_of_response_none rfl rfl rfl, rfl, rfl, ?_⟩
      exact Nat.add_lt_add_right (Nat.lt_succ_self 3) (s.account.round (some nonce))
    | accepted hash =>
      obtain ⟨raw, rfl⟩ : ∃ raw, state = .transactionRequest raw := hfits.accepted hash rfl
      refine ⟨s.counter, ⟨⟨.transactionRequest raw, node.account, tx, node.chainId⟩, none, true⟩,
        ?_, ?_⟩
      · simp [NonceSystem.pollTask, NonceCheck.body, Response.answers, Task.awaits]
      · exact ⟨fits_of_response_none rfl rfl rfl, rfl, rfl, Nat.lt_succ_self 0⟩
    | refused =>
      obtain ⟨raw, rfl⟩ : ∃ raw, state = .transactionRequest raw := hfits.refused rfl
      refine ⟨s.counter, ⟨⟨.reacquire, node.account, tx, node.chainId⟩, none, false⟩, ?_, ?_⟩
      · simp [NonceSystem.pollTask, NonceCheck.body, Response.answers, Task.awaits,
          NonceCheck.request, NonceSystem.nonceRefusal_isNonceError]
      · exact ⟨fits_of_response_none rfl rfl rfl, rfl, rfl, Nat.lt_succ_self 6⟩

/-- A future that waits does nothing when it is polled. -/
theorem pollTask_of_awaits {node : NonceSystem.Node Digest} (s : NonceSystem Digest) (i : Nat)
    {self : Task Digest} {request : Request} (h : self.awaits = some request) :
    NonceSystem.pollTask node s i self = s := by
  obtain ⟨⟨state, account, tx, chainId⟩, response, finished⟩ := self
  unfold awaits at h
  cases finished with
  | true => cases h
  | false =>
    cases response with
    | some response => cases h
    | none =>
      cases state with
      | nonceRequest => rfl
      | transactionRequest raw => rfl
      | _ => cases h

/-- The count of the account is an answer to the future that asks for it. -/
theorem advances_counted {node : NonceSystem.Node Digest} {account : AccountPool}
    {self : Task Digest} (hfits : Fits node self) (hawaits : self.awaits = some .transactionCount)
    (hroom : account.count + account.pool.length < 2 ^ 256) :
    Advances node account self
      { self with response := some (.transactionCount account.nextNonce) } := by
  obtain ⟨⟨state, owner, tx, chainId⟩, response, finished⟩ := self
  have hfree := AccountPool.free_nextNonce hroom
  cases finished with
  | true => cases hawaits
  | false =>
    cases response with
    | some response => cases hawaits
    | none =>
      cases state with
      | nonceRequest =>
        refine ⟨⟨hfits.account, hfits.chainId, fun _ _ => rfl, nofun, nofun⟩, rfl, rfl, ?_⟩
        show 4 + account.round (some account.nextNonce) < 5 + 0
        rw [AccountPool.round, if_pos hfree]
        exact Nat.lt_succ_self 4
      | _ => cases hawaits

/-- The transaction that a future waits for is its own. -/
theorem eq_of_awaits_send {self : Task Digest} {tx : Transaction}
    (h : self.awaits = some (.sendRawTransaction tx)) :
    self.finished = false ∧ self.response = none ∧ self.check.transaction = tx ∧
      ∃ raw, self.check.state = .transactionRequest raw := by
  unfold awaits at h
  split at h
  · cases h
  · rename_i hwaits
    rw [Bool.or_eq_true, not_or, Bool.not_eq_true, Option.not_isSome_iff_eq_none] at hwaits
    refine ⟨hwaits.1, hwaits.2, ?_⟩
    unfold NonceCheck.request at h
    grind

/-- A transaction is refused because its nonce is taken, so the refusal is one of the
steps to another nonce. -/
theorem advances_refused {node : NonceSystem.Node Digest} {account : AccountPool}
    {self : Task Digest} {tx : Transaction} (hfits : Fits node self)
    (hawaits : self.awaits = some (.sendRawTransaction tx))
    (hrefused : account.submit ⟨tx.nonce, tx.gasPrice⟩ = none) :
    Advances node account self { self with response := some .refused } := by
  obtain ⟨hopen, hresponse, rfl, raw, hstate⟩ := eq_of_awaits_send hawaits
  have htaken : ¬account.Free self.check.transaction.nonce := by
    intro hfree
    rw [AccountPool.submit_of_free hfree] at hrefused
    cases hrefused
  refine ⟨⟨hfits.account, hfits.chainId, nofun, nofun, fun _ => ⟨raw, hstate⟩⟩, rfl, ?_, ?_⟩
  · simp [settled, hresponse]
  · have hwork : self.work account = 8 := by
      simp [work, stage, held, hopen, hresponse, hstate, AccountPool.round, htaken]
    rw [hwork]
    simp [work, stage, held, hopen, AccountPool.round]

/-- What the node makes of a future whose transaction it accepts. -/
structure Accepts (node : NonceSystem.Node Digest) (tx : Transaction) (task next : Task Digest) :
    Prop where
  fits : Fits node next
  content : next.check.transaction.content = task.check.transaction.content
  transaction : tx = task.check.transaction
  unsettled : task.settled = false
  settled : next.settled = true
  waited : 2 ≤ task.stage
  stage : next.stage = 1

theorem accepts_of_awaits {node : NonceSystem.Node Digest} {self : Task Digest}
    {tx : Transaction} (hfits : Fits node self)
    (hawaits : self.awaits = some (.sendRawTransaction tx)) (hash : Digest) :
    Accepts node tx self { self with response := some (.accepted hash) } := by
  obtain ⟨hopen, hresponse, rfl, raw, hstate⟩ := eq_of_awaits_send hawaits
  refine ⟨⟨hfits.account, hfits.chainId, nofun, fun _ _ => ⟨raw, hstate⟩, nofun⟩, rfl, rfl,
    ?_, ?_, two_le_stage_of_awaits hawaits, ?_⟩
  · simp [settled, hopen, hresponse]
  · simp [settled]
  · simp [stage, hopen]

/-- A future that has been accepted holds no nonce. -/
theorem Accepts.work {node : NonceSystem.Node Digest} {tx : Transaction} {task next : Task Digest}
    (h : Accepts node tx task next) (account : AccountPool) : next.work account = 1 := by
  have hheld : next.held = none := by
    cases hheld : next.held with
    | none => rfl
    | some nonce =>
      have := two_le_stage_of_held hheld
      rw [h.stage] at this
      omega
  rw [Task.work, h.stage, hheld]
  rfl

end Task

/-! ## The future that moves -/

theorem exists_split {α : Type*} {l : List α} {i : Nat} {x : α} (h : l[i]? = some x) :
    ∃ before after, l = before ++ x :: after ∧ ∀ y, l.set i y = before ++ y :: after := by
  obtain ⟨hlt, rfl⟩ := List.getElem?_eq_some_iff.1 h
  refine ⟨l.take i, l.drop (i + 1), ?_, fun y => ?_⟩
  · rw [List.getElem_cons_drop, List.take_append_drop]
  · rw [List.set_eq_take_append_cons_drop, if_pos hlt]

theorem modify_of_getElem? {α : Type*} {l : List α} {i : Nat} {x : α} (h : l[i]? = some x)
    (f : α → α) : l.modify i f = l.set i (f x) := by
  refine List.ext_getElem? fun j => ?_
  rw [List.getElem?_modify, List.getElem?_set]
  have := (List.getElem?_eq_some_iff.1 h).1
  grind

namespace NonceSystem

/-- The requests of a future that are on their way. -/
def requestsOf (inFlight : List (Nat × Request)) (i : Nat) : List Request :=
  inFlight.filterMap fun p => if p.1 = i then some p.2 else none

theorem requestsOf_append (before after : List (Nat × Request)) (i : Nat) :
    requestsOf (before ++ after) i = requestsOf before i ++ requestsOf after i :=
  List.filterMap_append

theorem requestsOf_own (i j : Nat) (request : Option Request) :
    requestsOf (request.map fun request => (i, request)).toList j =
      if j = i then request.toList else [] := by
  cases request with
  | none => simp [requestsOf]
  | some request => by_cases h : i = j <;> simp [requestsOf, h, eq_comm]

/-- A step that moves one future: it gets one step closer to its end, or it is
accepted. -/
structure Moves (node : Node Digest) (s s' : NonceSystem Digest) (i : Nat)
    (task next : Task Digest) : Prop where
  get : s.tasks[i]? = some task
  tasks : s'.tasks = s.tasks.set i next
  requests : ∀ j, requestsOf s'.inFlight j =
    if j = i then next.awaits.toList else requestsOf s.inFlight j
  outcome : (s'.account = s.account ∧ s'.accepted = s.accepted ∧
      Task.Advances node s.account task next) ∨
    ∃ tx, s.account.submit ⟨tx.nonce, tx.gasPrice⟩ = some s'.account ∧
      s'.accepted = s.accepted ++ [tx] ∧ Task.Accepts node tx task next

/-- The futures of a run that nobody disturbs. -/
structure Running (node : Node Digest) (n room : Nat) (s : NonceSystem Digest) : Prop where
  fits : ∀ task ∈ s.tasks, Task.Fits node task
  awaited : ∀ i, requestsOf s.inFlight i = (s.tasks[i]?.bind Task.awaits).toList
  few : s.tasks.length ≤ n
  accepted : (s.accepted.map Transaction.content).Perm (s.tasks.filterMap Task.settles)
  room : s.account.count + s.account.pool.length ≤ room + s.accepted.length

/-- Each future has been accepted once at most, so that the nonces do not run out. -/
theorem Running.hasRoom {node : Node Digest} {n room : Nat} {s : NonceSystem Digest}
    (h : Running node n room s) (hroom : room + n < 2 ^ 256) :
    s.account.count + s.account.pool.length < 2 ^ 256 := by
  have haccepted := h.accepted.length_eq
  rw [List.length_map] at haccepted
  have hle := List.length_filterMap_le Task.settles s.tasks
  have := h.few
  have := h.room
  omega

theorem Running.moves {node : Node Digest} {n room : Nat} {s s' : NonceSystem Digest} {i : Nat}
    {task next : Task Digest} (h : Running node n room s) (hmoves : Moves node s s' i task next) :
    Running node n room s' := by
  have hlt := (List.getElem?_eq_some_iff.1 hmoves.get).1
  obtain ⟨before, after, htasks, hset⟩ := exists_split hmoves.get
  have hfits : Task.Fits node next := by
    rcases hmoves.outcome with ⟨-, -, hadvances⟩ | ⟨tx, -, -, haccepts⟩
    · exact hadvances.fits
    · exact haccepts.fits
  refine ⟨?_, ?_, ?_, ?_, ?_⟩
  · intro other hmem
    rw [hmoves.tasks] at hmem
    rcases List.mem_or_eq_of_mem_set hmem with hmem | rfl
    · exact h.fits other hmem
    · exact hfits
  · intro j
    rw [hmoves.requests, hmoves.tasks, List.getElem?_set]
    by_cases hij : j = i
    · rw [if_pos hij, if_pos hij.symm, if_pos hlt]
      rfl
    · rw [if_neg hij, if_neg (Ne.symm hij), h.awaited]
  · rw [hmoves.tasks, List.length_set]
    exact h.few
  · have haccepted := h.accepted
    rw [htasks] at haccepted
    rw [hmoves.tasks, hset]
    rcases hmoves.outcome with ⟨-, hsame, hadvances⟩ | ⟨tx, -, happend, haccepts⟩
    · have hsettles : next.settles = task.settles := by
        rw [Task.settles, Task.settles, hadvances.settled, hadvances.content]
      rw [hsame, List.filterMap_append, List.filterMap_cons, hsettles, ← List.filterMap_cons,
        ← List.filterMap_append]
      exact haccepted
    · have hbefore : task.settles = none := by rw [Task.settles, haccepts.unsettled]; rfl
      have hafter : next.settles = some tx.content := by
        rw [Task.settles, haccepts.settled, haccepts.content, haccepts.transaction]
        rfl
      rw [List.filterMap_append, List.filterMap_cons_none hbefore] at haccepted
      rw [happend, List.map_append, List.filterMap_append, List.filterMap_cons_some hafter]
      exact (haccepted.append_right _).trans
        (List.append_assoc _ _ _ ▸ (List.perm_append_singleton _ _).append_left _)
  · rcases hmoves.outcome with ⟨haccount, hsame, -⟩ | ⟨tx, hsubmit, happend, -⟩
    · rw [haccount, hsame]
      exact h.room
    · have := AccountPool.submit_room hsubmit
      have := h.room
      rw [happend, List.length_append, List.length_singleton]
      omega

/-! ## The steps that are left -/

/-- The steps that a future is away from its end, when each of `n` futures can still
make it take another round. -/
def weight (n : Nat) (account : AccountPool) (task : Task Digest) : Nat :=
  task.work account + if 2 ≤ task.stage then 6 * n else 0

/-- The steps that are left, with the futures that are still to be created. -/
def potential (n : Nat) (s : NonceSystem Digest) : Nat :=
  (s.tasks.map (weight n s.account)).sum + (n - s.tasks.length) * (6 * n + 10)

theorem weight_lt {node : Node Digest} {account : AccountPool} {task next : Task Digest}
    (h : Task.Advances node account task next) (n : Nat) :
    weight n account next < weight n account task := by
  have hwork := h.work
  have hnext := next.two_le_work_iff account
  have htask := task.two_le_work_iff account
  unfold weight
  split <;> split <;> omega

theorem weight_le (n : Nat) (account account' : AccountPool) (task : Task Digest) :
    weight n account' task ≤ weight n account task + 6 := by
  have := task.work_le account account'
  unfold weight
  omega

theorem sum_map_le_add {α : Type*} (l : List α) {f g : α → Nat} {d : Nat}
    (h : ∀ x, f x ≤ g x + d) : (l.map f).sum ≤ (l.map g).sum + d * l.length := by
  induction l with
  | nil => exact Nat.zero_le _
  | cons x l ih =>
    have := h x
    rw [List.map_cons, List.map_cons, List.sum_cons, List.sum_cons, List.length_cons, Nat.mul_succ]
    omega

/-- A step that moves a future lowers the potential: the other futures pay one round each
for a transaction that is accepted, and its own future has that much saved. -/
theorem potential_moves {node : Node Digest} {n room : Nat} {s s' : NonceSystem Digest} {i : Nat}
    {task next : Task Digest} (h : Running node n room s) (hmoves : Moves node s s' i task next) :
    potential n s' < potential n s := by
  obtain ⟨before, after, htasks, hset⟩ := exists_split hmoves.get
  have hfew := h.few
  unfold potential
  rw [hmoves.tasks, List.length_set, hset]
  refine Nat.add_lt_add_right ?_ _
  rw [htasks] at hfew ⊢
  simp only [List.map_append, List.map_cons, List.sum_append, List.sum_cons,
    List.length_append, List.length_cons] at hfew ⊢
  rcases hmoves.outcome with ⟨haccount, -, hadvances⟩ | ⟨tx, -, -, haccepts⟩
  · have := weight_lt hadvances n
    rw [haccount]
    omega
  · have hbefore := sum_map_le_add before (weight_le n s.account s'.account)
    have hafter := sum_map_le_add after (weight_le n s.account s'.account)
    have hnext : weight n s'.account next = 1 := by
      rw [weight, haccepts.work, haccepts.stage]
      rfl
    have htask : 6 * n + 2 ≤ weight n s.account task := by
      have := (task.two_le_work_iff s.account).2 haccepts.waited
      rw [weight, if_pos haccepts.waited]
      omega
    omega

/-! ## The steps of a run -/

/-- The steps of a run that nobody disturbs: no future ends early, nobody else sends from
the account, and what is mined was in the pool.  There are at most `n` futures. -/
def Quiet (n : Nat) (s : NonceSystem Digest) : Event → Prop
  | .create _ => s.tasks.length < n
  | .poll _ => True
  | .drop _ => False
  | .process _ => True
  | .send _ => False
  | .mine => s.account.HasNext

instance (n : Nat) (s : NonceSystem Digest) : (event : Event) → Decidable (Quiet n s event)
  | .create _ => inferInstanceAs (Decidable (_ < _))
  | .poll _ => inferInstanceAs (Decidable True)
  | .drop _ => inferInstanceAs (Decidable False)
  | .process _ => inferInstanceAs (Decidable True)
  | .send _ => inferInstanceAs (Decidable False)
  | .mine => inferInstanceAs (Decidable s.account.HasNext)

/-- The event does something: it is an iteration of a future that does not wait, or the
answer to a request. -/
def effective (s : NonceSystem Digest) : Event → Bool
  | .poll i => s.tasks[i]?.any fun task => !task.finished && task.awaits.isNone
  | .process index => index < s.inFlight.length
  | _ => false

/-- The transaction that a relay makes. -/
def Event.created : Event → Option Transaction
  | .create transaction => some transaction.content
  | _ => none

theorem exists_moves_poll {node : Node Digest} {n room : Nat} {s : NonceSystem Digest}
    (hsigns : ∀ tx, ∃ raw, prepareRawTransaction node.wallet node.account node.chainId tx = .ok raw)
    (h : Running node n room s) {i : Nat} {task : Task Digest} (hget : s.tasks[i]? = some task)
    (hopen : task.finished = false) (hawaits : task.awaits = none) :
    ∃ next, Moves node s (pollTask node s i task) i task next := by
  obtain ⟨counter, next, hpoll, hadvances⟩ := Task.exists_advances (s := s) (i := i) hsigns
    (h.fits task (List.mem_of_getElem? hget)) hopen hawaits
  rw [hpoll]
  refine ⟨next, hget, rfl, fun j => ?_, .inl ⟨rfl, rfl, hadvances⟩⟩
  show requestsOf (s.inFlight ++ _) j = _
  rw [requestsOf_append, requestsOf_own]
  by_cases hij : j = i
  · rw [if_pos hij, if_pos hij, hij, h.awaited, hget, Option.bind_some, hawaits]
    rfl
  · rw [if_neg hij, if_neg hij, List.append_nil]

theorem exists_moves_process {node : Node Digest} {n room : Nat} {s : NonceSystem Digest}
    (h : Running node n room s) (hroom : room + n < 2 ^ 256) {index i : Nat} {request : Request}
    (hrequest : s.inFlight[index]? = some (i, request)) :
    ∃ task next, Moves node s
      (processRequest node { s with inFlight := s.inFlight.eraseIdx index } i request)
      i task next := by
  have hlt := (List.getElem?_eq_some_iff.1 hrequest).1
  -- the request is the only one of its future
  have hinFlight : s.inFlight = s.inFlight.take index ++ (i, request) ::
      s.inFlight.drop (index + 1) := by
    rw [← (List.getElem?_eq_some_iff.1 hrequest).2, List.getElem_cons_drop, List.take_append_drop]
  have hall (j : Nat) : requestsOf s.inFlight j = requestsOf (s.inFlight.take index) j ++
      ((if j = i then [request] else []) ++ requestsOf (s.inFlight.drop (index + 1)) j) := by
    conv_lhs => rw [hinFlight, requestsOf_append, ← List.singleton_append, requestsOf_append]
    rw [show [(i, request)] = ((some request).map fun r => (i, r)).toList from rfl, requestsOf_own]
    rfl
  have hone := h.awaited i
  rw [hall, if_pos rfl] at hone
  obtain ⟨task, hget, hawaits⟩ : ∃ task, s.tasks[i]? = some task ∧ task.awaits = some request := by
    cases hbind : s.tasks[i]?.bind Task.awaits with
    | none => rw [hbind] at hone; simp at hone
    | some other =>
      obtain ⟨task, hget, hawaits⟩ := Option.bind_eq_some_iff.1 hbind
      rw [hbind] at hone
      have hmem : request ∈ (some other).toList := hone ▸ by simp
      rw [Option.mem_toList.1 hmem] at hawaits
      exact ⟨task, hget, hawaits⟩
  rw [hget, Option.bind_some, hawaits] at hone
  have hrest (j : Nat) : requestsOf (s.inFlight.eraseIdx index) j =
      if j = i then [] else requestsOf s.inFlight j := by
    rw [List.eraseIdx_eq_take_drop_succ, requestsOf_append]
    by_cases hij : j = i
    · have := congrArg List.length hone
      simp only [List.length_append, List.length_singleton, Option.toList_some] at this
      rw [if_pos hij, hij, List.eq_nil_of_length_eq_zero (l := requestsOf _ i) (by omega),
        List.eq_nil_of_length_eq_zero (l := requestsOf (List.drop _ _) i) (by omega)]
      rfl
    · rw [if_neg hij, hall, if_neg hij, List.nil_append]
  have hfits := h.fits task (List.mem_of_getElem? hget)
  have hanswered (response : Response Digest) :
      ({ task with response := some response } : Task Digest).awaits = none := by
    simp [Task.awaits]
  cases request with
  | transactionCount =>
    have hadvances := Task.advances_counted hfits hawaits (h.hasRoom hroom)
    refine ⟨task, _, hget, modify_of_getElem? hget _, fun j => ?_, .inl ⟨rfl, rfl, hadvances⟩⟩
    rw [hanswered]
    exact hrest j
  | sendRawTransaction tx =>
    rw [processRequest]
    cases hsubmit : s.account.submit ⟨tx.nonce, tx.gasPrice⟩ with
    | none =>
      have hadvances := Task.advances_refused hfits hawaits hsubmit
      refine ⟨task, _, hget, modify_of_getElem? hget _, fun j => ?_, .inl ⟨rfl, rfl, hadvances⟩⟩
      rw [hanswered]
      exact hrest j
    | some account =>
      have haccepts := Task.accepts_of_awaits hfits hawaits
        (node.wallet.transactionHash tx node.chainId)
      refine ⟨task, _, hget, modify_of_getElem? hget _, fun j => ?_,
        .inr ⟨tx, hsubmit, rfl, haccepts⟩⟩
      rw [hanswered]
      exact hrest j

/-- What a step of a quiet run is: one future moves, or nothing is done, or a future is
created or a transaction mined. -/
theorem step_cases {node : Node Digest} {n room : Nat} {s : NonceSystem Digest} {event : Event}
    (hsigns : ∀ tx, ∃ raw, prepareRawTransaction node.wallet node.account node.chainId tx = .ok raw)
    (hroom : room + n < 2 ^ 256) (h : Running node n room s) (hquiet : Quiet n s event) :
    (∃ i task next, Moves node s (step node s event) i task next ∧ event.created = none) ∨
    (step node s event = s ∧ effective s event = false ∧ event.created = none) ∨
    (∃ transaction, event = .create transaction ∧ s.tasks.length < n) ∨
    (event = .mine ∧ s.account.HasNext) := by
  cases event with
  | create transaction => exact .inr (.inr (.inl ⟨transaction, rfl, hquiet⟩))
  | poll i =>
    rw [step]
    cases hget : s.tasks[i]? with
    | none => exact .inr (.inl ⟨rfl, by rw [effective, hget]; rfl, rfl⟩)
    | some task =>
      cases hfinished : task.finished with
      | true =>
        refine .inr (.inl ⟨if_pos hfinished, ?_, rfl⟩)
        rw [effective, hget, Option.any_some, hfinished]
        rfl
      | false =>
        dsimp only
        rw [if_neg (by rw [hfinished]; exact Bool.false_ne_true)]
        cases hawaits : task.awaits with
        | none =>
          obtain ⟨next, hmoves⟩ := exists_moves_poll hsigns h hget hfinished hawaits
          exact .inl ⟨i, task, next, hmoves, rfl⟩
        | some request =>
          refine .inr (.inl ⟨Task.pollTask_of_awaits s i hawaits, ?_, rfl⟩)
          rw [effective, hget, Option.any_some, hawaits]
          simp
  | drop i => exact hquiet.elim
  | process index =>
    rw [step]
    cases hrequest : s.inFlight[index]? with
    | none =>
      refine .inr (.inl ⟨rfl, ?_, rfl⟩)
      rw [effective, decide_eq_false_iff_not]
      exact Nat.not_lt.2 (List.getElem?_eq_none_iff.1 hrequest)
    | some p =>
      obtain ⟨task, next, hmoves⟩ := exists_moves_process h hroom hrequest
      exact .inl ⟨p.1, task, next, hmoves, rfl⟩
  | send tx => exact hquiet.elim
  | mine => exact .inr (.inr (.inr ⟨rfl, hquiet⟩))

section

variable {node : Node Digest} {n room : Nat}
  (hsigns : ∀ tx, ∃ raw, prepareRawTransaction node.wallet node.account node.chainId tx = .ok raw)
  (hroom : room + n < 2 ^ 256)

include hsigns hroom

theorem running_step (s : NonceSystem Digest) (event : Event) (h : Running node n room s)
    (hquiet : Quiet n s event) : Running node n room (step node s event) := by
  rcases step_cases hsigns hroom h hquiet with ⟨i, task, next, hmoves, -⟩ | ⟨hsame, -⟩ |
    ⟨transaction, rfl, hfew⟩ | ⟨rfl, hnext⟩
  · exact h.moves hmoves
  · rw [hsame]
    exact h
  · refine ⟨?_, ?_, ?_, ?_, h.room⟩
    · intro task hmem
      rcases List.mem_append.1 hmem with hmem | hmem
      · exact h.fits task hmem
      · rw [List.mem_singleton.1 hmem]
        exact Task.fits_of_response_none rfl rfl rfl
    · intro i
      show requestsOf s.inFlight i = _
      rw [h.awaited, step]
      -- the new future has not asked for anything
      rcases Nat.lt_trichotomy i s.tasks.length with hlt | rfl | hgt
      · rw [List.getElem?_append_left hlt]
      · rw [List.getElem?_eq_none (Nat.le_refl _), List.getElem?_concat_length]
        rfl
      · rw [List.getElem?_eq_none (by omega), List.getElem?_eq_none (by simp; omega)]
    · show (s.tasks ++ [_]).length ≤ n
      rw [List.length_append, List.length_singleton]
      exact hfew
    · show (s.accepted.map Transaction.content).Perm ((s.tasks ++ [_]).filterMap Task.settles)
      rw [List.filterMap_append]
      exact (List.append_nil (s.tasks.filterMap Task.settles)).symm ▸ h.accepted
  · refine ⟨h.fits, h.awaited, h.few, h.accepted, ?_⟩
    exact (AccountPool.mine_room hnext).trans h.room

theorem potential_step (s : NonceSystem Digest) (event : Event) (h : Running node n room s)
    (hquiet : Quiet n s event) :
    (if effective s event then 1 else 0) + potential n (step node s event) ≤ potential n s := by
  rcases step_cases hsigns hroom h hquiet with ⟨i, task, next, hmoves, -⟩ | ⟨hsame, hidle, -⟩ |
    ⟨transaction, rfl, hfew⟩ | ⟨rfl, hnext⟩
  · have := potential_moves h hmoves
    split <;> omega
  · rw [hsame, hidle]
    simp
  · -- the work of the new future was counted already
    have hnew : weight n s.account (⟨sendTransactionWithNonce node.account node.chainId transaction,
        none, false⟩ : Task Digest) = 6 * n + 10 := Nat.add_comm 10 (6 * n)
    rw [show effective s (.create transaction) = false from rfl, if_neg Bool.false_ne_true,
      Nat.zero_add]
    show ((s.tasks ++ [_]).map (weight n s.account)).sum +
      (n - (s.tasks ++ [_]).length) * (6 * n + 10) ≤ _
    rw [List.map_append, List.sum_append, List.map_singleton, List.sum_singleton, hnew,
      List.length_append, List.length_singleton, potential]
    obtain ⟨rest, hrest, hnext⟩ : ∃ rest, n - s.tasks.length = rest + 1 ∧
        n - (s.tasks.length + 1) = rest := ⟨n - s.tasks.length - 1, by omega, by omega⟩
    rw [hrest, hnext, Nat.succ_mul rest]
    omega
  · have hsum : (s.tasks.map (weight n s.account.mine)).sum ≤
        (s.tasks.map (weight n s.account)).sum := by
      refine List.sum_le_sum fun task _ => ?_
      exact Nat.add_le_add_right (task.work_mine_le hnext) _
    rw [show effective s .mine = false from rfl, if_neg Bool.false_ne_true, Nat.zero_add]
    exact Nat.add_le_add_right hsum _

theorem contents_step (s : NonceSystem Digest) (event : Event) (h : Running node n room s)
    (hquiet : Quiet n s event) :
    (step node s event).tasks.map (·.check.transaction.content) =
      s.tasks.map (·.check.transaction.content) ++ event.created.toList := by
  rcases step_cases hsigns hroom h hquiet with ⟨i, task, next, hmoves, hcreated⟩ |
    ⟨hsame, -, hcreated⟩ | ⟨transaction, rfl, hfew⟩ | ⟨rfl, hnext⟩
  · have hcontent : next.check.transaction.content = task.check.transaction.content := by
      rcases hmoves.outcome with ⟨-, -, hadvances⟩ | ⟨tx, -, -, haccepts⟩
      · exact hadvances.content
      · exact haccepts.content
    obtain ⟨before, after, htasks, hset⟩ := exists_split hmoves.get
    rw [hmoves.tasks, hset, htasks, hcreated]
    simp [hcontent]
  · rw [hsame, hcreated]
    simp
  · exact List.map_append
  · exact (List.append_nil _).symm

theorem contents_run (events : List Event) (s : NonceSystem Digest)
    (hquiet : Runs.Along (step node) (Quiet n) s events) (h : Running node n room s) :
    (run node s events).tasks.map (·.check.transaction.content) =
      s.tasks.map (·.check.transaction.content) ++ events.filterMap Event.created := by
  induction events generalizing s with
  | nil => exact (List.append_nil _).symm
  | cons event events ih =>
    have htail := ih (step node s event) hquiet.2 (running_step hsigns hroom s event h hquiet.1)
    rw [contents_step hsigns hroom s event h hquiet.1, List.append_assoc] at htail
    rw [run, List.foldl_cons]
    refine htail.trans (congrArg _ ?_)
    cases hcreated : event.created <;> simp [hcreated]

end

theorem running_start (node : Node Digest) (n : Nat) (counter : U256) (account : AccountPool) :
    Running node n (account.count + account.pool.length) (start counter account) where
  fits := nofun
  awaited _ := rfl
  few := Nat.zero_le n
  accepted := List.Perm.nil
  room := Nat.le_refl _

/-- When nothing is left to do, all futures are at their end. -/
theorem Running.finished {node : Node Digest} {n room : Nat} {s : NonceSystem Digest}
    (h : Running node n room s) (hidle : ∀ event, effective s event = false) {task : Task Digest}
    (hmem : task ∈ s.tasks) : task.finished = true := by
  obtain ⟨i, hget⟩ := List.getElem?_of_mem hmem
  by_contra hopen
  rw [Bool.not_eq_true] at hopen
  have hpoll := hidle (.poll i)
  rw [effective, hget, Option.any_some, hopen] at hpoll
  cases hawaits : task.awaits with
  | none => simp [hawaits] at hpoll
  | some request =>
    have hawaited := h.awaited i
    have hprocess := hidle (.process 0)
    rw [effective, decide_eq_false_iff_not, Nat.not_lt, Nat.le_zero, List.length_eq_zero_iff]
      at hprocess
    rw [hget, Option.bind_some, hawaits, hprocess] at hawaited
    cases hawaited

/-- Futures that nobody disturbs come to an end, however their iterations, the answers of
the node and the blocks are ordered, and whatever the counter is set to at first: `n` of
them take at most `n * (6 * n + 10)` iterations and answers.  When none is left every
future is done, and the node has accepted the transaction of each of them exactly once. -/
theorem futures_settle (node : Node Digest)
    (hsigns : ∀ tx, ∃ raw, prepareRawTransaction node.wallet node.account node.chainId tx = .ok raw)
    (counter : U256) (account : AccountPool) (n : Nat)
    (hroom : account.count + account.pool.length + n < 2 ^ 256) (events : List Event)
    (hquiet : Runs.Along (step node) (Quiet n) (start counter account) events) :
    Runs.progress (step node) effective (start counter account) events ≤ n * (6 * n + 10) ∧
    ((∀ event, effective (run node (start counter account) events) event = false) →
      (∀ task ∈ (run node (start counter account) events).tasks, task.finished = true) ∧
      ((run node (start counter account) events).accepted.map Transaction.content).Perm
        (events.filterMap Event.created)) := by
  have hstart := running_start node n counter account
  have hend : Running node n _ (run node (start counter account) events) :=
    Runs.foldl_of_along (running_step hsigns hroom) events _ hquiet hstart
  refine ⟨?_, fun hidle => ?_⟩
  · have hprogress := Runs.progress_add_le (potential n) (running_step hsigns hroom)
      (potential_step hsigns hroom) events _ hquiet hstart
    have hpotential : potential n (start counter account : NonceSystem Digest) =
        n * (6 * n + 10) := Nat.zero_add _
    omega
  · have hfinished : ∀ task ∈ (run node (start counter account) events).tasks,
        task.finished = true := fun task hmem => hend.finished hidle hmem
    refine ⟨hfinished, ?_⟩
    have hcontents := contents_run hsigns hroom events _ hquiet hstart
    have hsettles : (run node (start counter account) events).tasks.filterMap Task.settles =
        (run node (start counter account) events).tasks.map (·.check.transaction.content) := by
      rw [← List.filterMap_eq_map]
      refine List.filterMap_congr fun task hmem => ?_
      rw [Task.settles, Task.settled, hfinished task hmem]
      rfl
    have haccepted := hend.accepted
    rw [hsettles, hcontents] at haccepted
    exact haccepted

theorem effective_of_finished {s : NonceSystem Digest} (hinFlight : s.inFlight = [])
    (hfinished : ∀ task ∈ s.tasks, task.finished = true) (event : Event) :
    effective s event = false := by
  cases event with
  | poll i =>
    cases hget : s.tasks[i]? with
    | none => rw [effective, hget]; rfl
    | some task =>
      rw [effective, hget, Option.any_some, hfinished task (List.mem_of_getElem? hget)]
      rfl
  | process index => simp [effective, hinFlight]
  | _ => rfl

/-- The two futures of `replacingRun` to their end: one replaces the other in the pool, and
a block is mined. -/
def settledRun : List Event := replacingRun 1 2 ++ [.poll 0, .mine, .poll 1]

theorem futures_settle_settledRun :
    Runs.progress (step unlockedNode) effective (start 0 minedAccount) settledRun ≤ 44 ∧
      (∀ task ∈ (run unlockedNode (start 0 minedAccount) settledRun).tasks,
        task.finished = true) ∧
      ((run unlockedNode (start 0 minedAccount) settledRun).accepted.map
        Transaction.content).Perm [relayTransaction 2, relayTransaction 1] := by
  have h := futures_settle unlockedNode (fun tx => ⟨_, rfl⟩) 0 minedAccount 2 (by decide) settledRun
    (by decide +kernel)
  exact ⟨h.1, h.2 (effective_of_finished (by decide +kernel) (by decide +kernel))⟩

end NonceSystem

end PoaBridge
