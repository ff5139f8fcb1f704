import Mathlib.Data.Set.Subsingleton
import PoaBridge.Lib.Runs
import PoaBridge.Nonce

/-!
# Many transactions of one account

Any number of `NonceCheck` futures of one node, the counter they share, the
requests that are on their way, and the pool that the node keeps for the
account.

A request is apart from the future that made it: the node works on the requests
in any order, an answer waits until its future is polled, and a future can be
dropped while its request is still on its way.  Another process can send from
the account, and blocks are mined.

The pool accepts a transaction under a nonce that is free, and it replaces the
transaction under a nonce when the newcomer pays more for gas.  A future that
asks for a nonce writes the answer to the shared counter, while other futures
hold nonces that they took from it, so two futures can send the same nonce.
`accepted_nodup_iff_not_replaced` says that the pool sorts this out as long as the
node replaces no transaction that has the nonce of an accepted one.  It does not when
no transaction outbids an accepted one, and `nonces_unique_iff_one_gas_price` says
what this means for the gas prices of the futures: all of them have to be the
same.
-/

namespace PoaBridge

open PollLoop

/-! ## The pool of the node -/

/-- What the pool looks at in a transaction. -/
structure Pooled where
  nonce : U256
  gasPrice : U256
deriving DecidableEq, Repr

/-- The account: the number of its mined transactions, and its transactions in
the pool, at most one under each nonce. -/
structure AccountPool where
  count : Nat
  pool : List Pooled
  distinct : (pool.map Pooled.nonce).Nodup

namespace AccountPool

/-- The transaction under a nonce. -/
def find (self : AccountPool) (nonce : U256) : Option Pooled :=
  self.pool.find? (·.nonce = nonce)

theorem mem_of_find {self : AccountPool} {nonce : U256} {tx : Pooled}
    (h : self.find nonce = some tx) : tx ∈ self.pool ∧ tx.nonce = nonce :=
  ⟨List.mem_of_find?_eq_some h, by simpa using List.find?_some h⟩

theorem not_mem_of_find {self : AccountPool} {nonce : U256} (h : self.find nonce = none) :
    nonce ∉ self.pool.map Pooled.nonce := by
  intro hmem
  obtain ⟨tx, htx, rfl⟩ := List.mem_map.1 hmem
  have := List.find?_eq_none.1 h tx htx
  simp at this

theorem find_of_mem {self : AccountPool} {tx : Pooled} (h : tx ∈ self.pool) :
    self.find tx.nonce = some tx := by
  cases hfind : self.find tx.nonce with
  | none => exact absurd (List.mem_map_of_mem h) (not_mem_of_find hfind)
  | some old =>
    obtain ⟨hold, hnonce⟩ := mem_of_find hfind
    rw [List.inj_on_of_nodup_map self.distinct hold h hnonce]

/-- The pool with a transaction in the place of the one under its nonce. -/
def insert (self : AccountPool) (tx : Pooled) : AccountPool where
  count := self.count
  pool := tx :: self.pool.filter (·.nonce ≠ tx.nonce)
  distinct := by
    rw [List.map_cons, List.nodup_cons]
    constructor
    · intro hmem
      obtain ⟨old, hold, heq⟩ := List.mem_map.1 hmem
      exact absurd heq (by simpa using (List.mem_filter.1 hold).2)
    · exact self.distinct.sublist (List.filter_sublist.map _)

/-- The node receives a transaction; `none` is the error that asks for another
nonce. -/
def submit (self : AccountPool) (tx : Pooled) : Option AccountPool :=
  if tx.nonce.toNat < self.count then none
  else
    match self.find tx.nonce with
    | none => some (self.insert tx)
    | some old => if old.gasPrice < tx.gasPrice then some (self.insert tx) else none

/-- The transaction count of the pending block: the first nonce that is neither
mined nor in the pool. -/
def nextNonce (self : AccountPool) : U256 :=
  let free := (List.range (self.pool.length + 1)).find? fun i =>
    (self.find (BitVec.ofNat 256 (self.count + i))).isNone
  BitVec.ofNat 256 (self.count + free.getD self.pool.length)

/-- A block with the next transaction of the account is mined. -/
def mine (self : AccountPool) : AccountPool where
  count := self.count + 1
  pool := self.pool.filter fun tx => self.count + 1 ≤ tx.nonce.toNat
  distinct := self.distinct.sublist (List.filter_sublist.map _)

/-! ### Nonces that are taken -/

/-- The nonce of the transaction is mined, or it is taken in the pool by a
transaction that pays at least as much. -/
def Taken (self : AccountPool) (tx : Pooled) : Prop :=
  tx.nonce.toNat < self.count ∨
    ∃ p ∈ self.pool, p.nonce = tx.nonce ∧ tx.gasPrice ≤ p.gasPrice

theorem taken_insert (self : AccountPool) (tx : Pooled) : (self.insert tx).Taken tx :=
  .inr ⟨tx, by simp [insert], rfl, BitVec.le_refl _⟩

/-- A transaction is accepted under a nonce that is free, or for a higher
price. -/
theorem submit_eq_some {self self' : AccountPool} {tx : Pooled}
    (h : self.submit tx = some self') :
    self' = self.insert tx ∧ self.count ≤ tx.nonce.toNat ∧
      ∀ p ∈ self.pool, p.nonce = tx.nonce → p.gasPrice < tx.gasPrice := by
  unfold submit at h
  split at h
  · cases h
  · rename_i hcount
    split at h
    · rename_i hfind
      refine ⟨(Option.some.inj h).symm, by omega, fun p hp heq => ?_⟩
      exact absurd (List.mem_map.2 ⟨p, hp, heq⟩) (not_mem_of_find hfind)
    · rename_i old hfind
      split at h
      · rename_i hprice
        obtain ⟨hold, hnonce⟩ := mem_of_find hfind
        refine ⟨(Option.some.inj h).symm, by omega, fun p hp heq => ?_⟩
        have : p = old := List.inj_on_of_nodup_map self.distinct hp hold (heq.trans hnonce.symm)
        rw [this]
        exact hprice
      · cases h

/-- A nonce that is taken stays taken. -/
theorem Taken.submit {self self' : AccountPool} {t tx : Pooled} (ht : self.Taken t)
    (h : self.submit tx = some self') : self'.Taken t := by
  obtain ⟨rfl, hcount, hprice⟩ := submit_eq_some h
  rcases ht with hmined | ⟨p, hp, hnonce, hle⟩
  · exact .inl hmined
  · by_cases heq : p.nonce = tx.nonce
    · have hlt := hprice p hp heq
      rw [BitVec.lt_def] at hlt
      rw [BitVec.le_def] at hle
      exact .inr ⟨tx, by simp [insert], heq.symm.trans hnonce, by rw [BitVec.le_def]; omega⟩
    · exact .inr ⟨p, by simp [insert, hp, heq], hnonce, hle⟩

theorem Taken.mine {self : AccountPool} {t : Pooled} (ht : self.Taken t) :
    self.mine.Taken t := by
  rcases ht with hmined | ⟨p, hp, hnonce, hle⟩
  · exact .inl (Nat.lt_succ_of_lt hmined)
  · by_cases hcount : self.count + 1 ≤ p.nonce.toNat
    · exact .inr ⟨p, List.mem_filter.2 ⟨hp, decide_eq_true hcount⟩, hnonce, hle⟩
    · rw [hnonce] at hcount
      exact .inl (by show t.nonce.toNat < self.count + 1; omega)

end AccountPool

/-! ## The system -/

inductive Request where
  | transactionCount
  | sendRawTransaction (transaction : Transaction)

inductive Response (Digest : Type) where
  | transactionCount (nonce : U256)
  | accepted (hash : Digest)
  | refused

/-- A future, and the answer that waits for it. -/
structure Task (Digest : Type) where
  check : NonceCheck
  response : Option (Response Digest)
  finished : Bool

structure NonceSystem (Digest : Type) where
  /-- `NodeInfo::nonce`. -/
  counter : U256
  tasks : List (Task Digest)
  /-- The requests on their way to the node, with their tasks. -/
  inFlight : List (Nat × Request)
  account : AccountPool
  /-- The transactions of the tasks that the node has accepted. -/
  accepted : List Transaction

variable {Digest : Type}

/-- The error of the node for a nonce that it does not take. -/
def nonceRefusal : RpcError where
  code := .serverError (-32010)
  message := "Transaction nonce is too low. Try incrementing the nonce."

/-- The answers that a future finds when it is polled. -/
def Response.answers : Option (Response Digest) → NonceCheck.Answers Digest
  | none => ⟨.ok .notReady, fun _ => .ok .notReady⟩
  | some (.transactionCount nonce) => ⟨.ok (.ready nonce), fun _ => .ok .notReady⟩
  | some (.accepted hash) => ⟨.ok .notReady, fun _ => .ok (.ready hash)⟩
  | some .refused => ⟨.ok .notReady, fun _ => .error (.web3 (.rpc nonceRefusal))⟩

/-- The request that a future makes when it enters its state. -/
def NonceCheck.request (check : NonceCheck) : Option Request :=
  match check.state with
  | .nonceRequest => some .transactionCount
  | .transactionRequest _ => some (.sendRawTransaction check.transaction)
  | _ => none

namespace NonceSystem

/-- What can happen next. -/
inductive Event where
  /-- A relay makes a transaction. -/
  | create (transaction : Transaction)
  /-- One iteration in a poll of a future. -/
  | poll (task : Nat)
  /-- A future ends early: it times out, or its batch fails. -/
  | drop (task : Nat)
  /-- The node works on one of the requests on their way. -/
  | process (index : Nat)
  /-- Another process sends a transaction from the account. -/
  | send (tx : Pooled)
  | mine

/-- The node, the account and the chain of the futures. -/
structure Node (Digest : Type) where
  wallet : Wallet Digest
  account : Address
  chainId : UInt64

def setTask (self : NonceSystem Digest) (task : Nat) (update : Task Digest → Task Digest) :
    NonceSystem Digest :=
  { self with tasks := self.tasks.modify task update }

/-- One iteration of the loop of a future. -/
def pollTask (node : Node Digest) (self : NonceSystem Digest) (i : Nat) (task : Task Digest) :
    NonceSystem Digest :=
  match NonceCheck.body node.wallet (task.check, self.counter)
      (Response.answers task.response) with
  | .next (check, counter) =>
    { self with
      counter := counter
      tasks := self.tasks.set i ⟨check, none, false⟩
      inFlight := self.inFlight ++ (check.request.map fun request => (i, request)).toList }
  | .ret _ (.ok .notReady) => self
  | .ret (check, counter) _ =>
    { self with
      counter := counter
      tasks := self.tasks.set i ⟨check, none, true⟩ }

/-- The node works on a request. -/
def processRequest (node : Node Digest) (self : NonceSystem Digest) (i : Nat) :
    Request → NonceSystem Digest
  | .transactionCount => self.setTask i fun task =>
      { task with response := some (.transactionCount self.account.nextNonce) }
  | .sendRawTransaction tx =>
    match self.account.submit ⟨tx.nonce, tx.gasPrice⟩ with
    | some account =>
      { self with account := account, accepted := self.accepted ++ [tx] }.setTask i fun task =>
        { task with response := some (.accepted (node.wallet.transactionHash tx node.chainId)) }
    | none => self.setTask i fun task => { task with response := some .refused }

def step (node : Node Digest) (self : NonceSystem Digest) : Event → NonceSystem Digest
  | .create transaction =>
    { self with tasks := self.tasks ++
      [⟨sendTransactionWithNonce node.account node.chainId transaction, none, false⟩] }
  | .poll i =>
    match self.tasks[i]? with
    | none => self
    | some task => if task.finished then self else pollTask node self i task
  | .drop i => self.setTask i fun task => { task with finished := true }
  | .process index =>
    match self.inFlight[index]? with
    | none => self
    | some (i, request) =>
      processRequest node { self with inFlight := self.inFlight.eraseIdx index } i request
  | .send tx => { self with account := (self.account.submit tx).getD self.account }
  | .mine => { self with account := self.account.mine }

/-- The process starts.  The counter is what it is set to, and the account has
its history. -/
def start (counter : U256) (account : AccountPool) : NonceSystem Digest where
  counter := counter
  tasks := []
  inFlight := []
  account := account
  accepted := []

def run (node : Node Digest) (self : NonceSystem Digest) (events : List Event) :
    NonceSystem Digest :=
  events.foldl (step node) self

/-! ## Nobody is outbid -/

/-- The nonces of the accepted transactions are taken, and they are distinct. -/
structure Inv (s : NonceSystem Digest) : Prop where
  taken : ∀ t ∈ s.accepted, s.account.Taken ⟨t.nonce, t.gasPrice⟩
  distinct : (s.accepted.map Transaction.nonce).Nodup

/-- The node does not work on a transaction that pays more for gas than an
accepted one with the same nonce. -/
def NotOutbid (s : NonceSystem Digest) : Event → Prop
  | .process index => ∀ i tx, s.inFlight[index]? = some (i, .sendRawTransaction tx) →
      ∀ t ∈ s.accepted, t.nonce = tx.nonce → tx.gasPrice ≤ t.gasPrice
  | _ => True

/-- If the nonce is that of an accepted transaction, the one in the pool is not cheaper: the
test of `submit` does not let the new transaction replace it. -/
def Outdone (s : NonceSystem Digest) (tx : Transaction) : Prop :=
  tx.nonce ∈ s.accepted.map Transaction.nonce → s.account.count ≤ tx.nonce.toNat →
    ∀ old, s.account.find tx.nonce = some old → ¬ old.gasPrice < tx.gasPrice

/-- The node works on no transaction that replaces one with the nonce of an accepted one. -/
def NotReplaced (s : NonceSystem Digest) : Event → Prop
  | .process index => ∀ i tx, s.inFlight[index]? = some (i, .sendRawTransaction tx) → Outdone s tx
  | _ => True

theorem Inv.notReplaced {s : NonceSystem Digest} (h : Inv s) {event : Event}
    (hnotOutbid : NotOutbid s event) : NotReplaced s event := by
  cases event with
  | process index =>
    intro i tx hrequest hmem hcount old hold hlt
    obtain ⟨t, ht, hnonce⟩ := List.mem_map.1 hmem
    have hle := hnotOutbid i tx hrequest t ht hnonce
    rcases h.taken t ht with hmined | ⟨p, hp, hpn, hpaid⟩
    · have hmined : t.nonce.toNat < s.account.count := hmined
      rw [hnonce] at hmined
      omega
    · have hfind := AccountPool.find_of_mem hp
      rw [hpn, hnonce, hold] at hfind
      obtain rfl := Option.some.inj hfind
      have hpaid : t.gasPrice ≤ old.gasPrice := hpaid
      rw [BitVec.lt_def] at hlt
      rw [BitVec.le_def] at hle hpaid
      omega
  | _ => trivial

theorem pollTask_frame (node : Node Digest) (s : NonceSystem Digest) (i : Nat)
    (task : Task Digest) :
    (pollTask node s i task).account = s.account ∧
      (pollTask node s i task).accepted = s.accepted := by
  unfold pollTask
  split <;> exact ⟨rfl, rfl⟩

/-- What the node makes of a transaction. -/
theorem accepted_process_cases {node : Node Digest} {s : NonceSystem Digest} (h : Inv s)
    (i : Nat) (tx : Transaction) :
    (processRequest node s i (.sendRawTransaction tx)).accepted = s.accepted ∧ Outdone s tx ∨
      (processRequest node s i (.sendRawTransaction tx)).accepted = s.accepted ++ [tx] ∧
        (Outdone s tx ↔ tx.nonce ∉ s.accepted.map Transaction.nonce) := by
  rw [processRequest]
  cases hsubmit : s.account.submit ⟨tx.nonce, tx.gasPrice⟩ with
  | none =>
    refine .inl ⟨rfl, fun _ hcount old hold hlt => ?_⟩
    rw [AccountPool.submit, if_neg (Nat.not_lt.2 hcount), hold] at hsubmit
    dsimp only at hsubmit
    rw [if_pos hlt] at hsubmit
    cases hsubmit
  | some account =>
    obtain ⟨-, hcount, hhigher⟩ := AccountPool.submit_eq_some hsubmit
    refine .inr ⟨rfl, fun hnot hmem => ?_, fun hnew hmem => absurd hmem hnew⟩
    obtain ⟨t, ht, hnonce⟩ := List.mem_map.1 hmem
    rcases h.taken t ht with hmined | ⟨p, hp, hpn, -⟩
    · have hmined : t.nonce.toNat < s.account.count := hmined
      have hcount : s.account.count ≤ tx.nonce.toNat := hcount
      rw [hnonce] at hmined
      omega
    · have hfind := AccountPool.find_of_mem hp
      rw [hpn.trans hnonce] at hfind
      exact hnot hmem hcount p hfind (hhigher p hp (hpn.trans hnonce))

theorem inv_process {node : Node Digest} {s : NonceSystem Digest} (h : Inv s) (i : Nat)
    {request : Request} (houtdone : ∀ tx, request = .sendRawTransaction tx → Outdone s tx) :
    Inv (processRequest node s i request) := by
  cases request with
  | transactionCount => exact ⟨h.taken, h.distinct⟩
  | sendRawTransaction tx =>
    refine ⟨?_, ?_⟩
    · rw [processRequest]
      cases hsubmit : s.account.submit ⟨tx.nonce, tx.gasPrice⟩ with
      | none => exact h.taken
      | some account =>
        intro t ht
        rcases List.mem_append.1 ht with ht | ht
        · exact (h.taken t ht).submit hsubmit
        · obtain rfl := List.mem_singleton.1 ht
          obtain ⟨rfl, -⟩ := AccountPool.submit_eq_some hsubmit
          exact AccountPool.taken_insert _ _
    · rcases @accepted_process_cases _ node s h i tx with ⟨hsame, -⟩ | ⟨hnew, hiff⟩
      · rw [hsame]
        exact h.distinct
      · rw [hnew, List.map_append]
        refine List.nodup_append.2 ⟨h.distinct, List.nodup_singleton _, fun a ha b hb hab => ?_⟩
        obtain rfl := List.mem_singleton.1 hb
        exact hiff.1 (houtdone tx rfl) (hab ▸ ha)

theorem inv_step {node : Node Digest} {s : NonceSystem Digest} {event : Event} (h : Inv s)
    (hnotReplaced : NotReplaced s event) : Inv (step node s event) := by
  cases event with
  | create transaction => exact ⟨h.taken, h.distinct⟩
  | poll i =>
    rw [step]
    split
    · exact h
    · split
      · exact h
      · rename_i task _ _
        obtain ⟨haccount, haccepted⟩ := pollTask_frame node s i task
        refine ⟨?_, ?_⟩
        · rw [haccount, haccepted]
          exact h.taken
        · rw [haccepted]
          exact h.distinct
  | drop i => exact ⟨h.taken, h.distinct⟩
  | process index =>
    rw [step]
    split
    · exact h
    · rename_i i request hrequest
      have htaken : Inv { s with inFlight := s.inFlight.eraseIdx index } :=
        ⟨h.taken, h.distinct⟩
      apply inv_process htaken i
      intro tx heq
      exact hnotReplaced i tx (heq ▸ hrequest)
  | send tx =>
    rw [step]
    cases hsubmit : s.account.submit tx with
    | none => exact h
    | some account => exact ⟨fun t ht => (h.taken t ht).submit hsubmit, h.distinct⟩
  | mine => exact ⟨fun t ht => (h.taken t ht).mine, h.distinct⟩

theorem inv_start (counter : U256) (account : AccountPool) :
    Inv (start counter account : NonceSystem Digest) :=
  ⟨fun _ h => (by cases h), List.nodup_nil⟩

/-- What is accepted stays accepted. -/
theorem accepted_sublist_step (node : Node Digest) (s : NonceSystem Digest) (event : Event) :
    s.accepted.Sublist (step node s event).accepted := by
  cases event with
  | poll i =>
    rw [step]
    split
    · exact List.Sublist.refl _
    · split
      · exact List.Sublist.refl _
      · rw [(pollTask_frame node s i _).2]
  | process index =>
    rw [step]
    split
    · exact List.Sublist.refl _
    · unfold processRequest
      split
      · exact List.Sublist.refl _
      · split
        · exact List.sublist_append_left _ _
        · exact List.Sublist.refl _
  | create | drop | send | mine => exact List.Sublist.refl _

/-- What a step adds to the accepted transactions. -/
theorem accepted_step_cases {node : Node Digest} {s : NonceSystem Digest} (h : Inv s)
    (event : Event) :
    (step node s event).accepted = s.accepted ∧ NotReplaced s event ∨
      ∃ tx, (step node s event).accepted = s.accepted ++ [tx] ∧
        (NotReplaced s event ↔ tx.nonce ∉ s.accepted.map Transaction.nonce) := by
  cases event with
  | poll i =>
    refine .inl ⟨?_, trivial⟩
    rw [step]
    split
    · rfl
    · split
      · rfl
      · exact (pollTask_frame node s i _).2
  | process index =>
    rw [step]
    cases hrequest : s.inFlight[index]? with
    | none => exact .inl ⟨rfl, fun i tx heq => by cases hrequest.symm.trans heq⟩
    | some request =>
      obtain ⟨i, request⟩ := request
      cases request with
      | transactionCount =>
        exact .inl ⟨rfl, fun j tx heq => by cases hrequest.symm.trans heq⟩
      | sendRawTransaction tx =>
        have htaken : Inv { s with inFlight := s.inFlight.eraseIdx index } :=
          ⟨h.taken, h.distinct⟩
        have hcases := @accepted_process_cases _ node _ htaken i tx
        have hiff : NotReplaced s (.process index) ↔ Outdone s tx := by
          refine ⟨fun hnot => hnot i tx hrequest, fun houtdone j tx' heq => ?_⟩
          cases hrequest.symm.trans heq
          exact houtdone
        rw [hiff]
        exact hcases.imp id fun hnew => ⟨tx, hnew⟩
  | create | drop | send | mine => exact .inl ⟨rfl, trivial⟩

/-- In every run the nonces of the accepted transactions are distinct, if and only if the
node never replaces a transaction that has the nonce of an accepted one. -/
theorem accepted_nodup_iff_not_replaced (node : Node Digest) (counter : U256)
    (account : AccountPool) (events : List Event) :
    ((run node (start counter account) events).accepted.map Transaction.nonce).Nodup ↔
      Runs.Along (step node) NotReplaced (start counter account) events := by
  refine @Runs.nodup_foldl_iff _ _ _ (step node) (fun s => s.accepted.map Transaction.nonce)
    NotReplaced Inv (fun s event => ?_) (fun _ _ => inv_step) (fun s event hs => ?_) events _
    (inv_start counter account) List.nodup_nil
  · exact (accepted_sublist_step node s event).map _
  · refine (accepted_step_cases hs event).imp (fun h => ⟨congrArg _ h.1, h.2⟩) ?_
    rintro ⟨tx, hnew, hiff⟩
    exact ⟨tx.nonce, by rw [hnew, List.map_append]; rfl, hiff⟩

/-- In every run in which no transaction outbids an accepted one, the nonces of
the accepted transactions are distinct. -/
theorem accepted_nodup_of_not_outbid (node : Node Digest) (counter : U256)
    (account : AccountPool) (events : List Event)
    (h : Runs.Along (step node) NotOutbid (start counter account) events) :
    ((run node (start counter account) events).accepted.map Transaction.nonce).Nodup :=
  (Runs.foldl_of_along (fun _ _ hs hnotOutbid => inv_step hs (hs.notReplaced hnotOutbid)) events _
    h (inv_start counter account)).distinct

/-! ## Gas prices -/

/-- Every transaction of the futures has one of the given gas prices: those that
are still to be sent, those on their way, and those that the node accepted. -/
structure Priced (node : Node Digest) (prices : Set U256) (s : NonceSystem Digest) : Prop where
  tasks : ∀ task ∈ s.tasks, ∃ start, start.transaction.gasPrice ∈ prices ∧
    NonceCheck.Sends node.wallet start task.check
  inFlight : ∀ i tx, (i, Request.sendRawTransaction tx) ∈ s.inFlight → tx.gasPrice ∈ prices
  accepted : ∀ t ∈ s.accepted, t.gasPrice ∈ prices

/-- The transactions that the relays make have one of the given gas prices. -/
def CreatesAt (prices : Set U256) : Event → Prop
  | .create transaction => transaction.gasPrice ∈ prices
  | _ => True

theorem Priced.setTask {node : Node Digest} {prices : Set U256} {s : NonceSystem Digest}
    (h : Priced node prices s) (i : Nat) {update : Task Digest → Task Digest}
    (hupdate : ∀ task, (update task).check = task.check) :
    Priced node prices (s.setTask i update) := by
  refine ⟨?_, h.inFlight, h.accepted⟩
  intro task hmem
  obtain ⟨j, hj, rfl⟩ := List.getElem_of_mem hmem
  have hlt : j < s.tasks.length := by simpa [NonceSystem.setTask] using hj
  obtain ⟨start, hprice, hsends⟩ := h.tasks _ (List.getElem_mem hlt)
  refine ⟨start, hprice, ?_⟩
  simp only [NonceSystem.setTask, List.getElem_modify]
  split
  · rw [hupdate]
    exact hsends
  · exact hsends

/-- An iteration of a future keeps its gas price, and the request that it makes
has this price. -/
theorem Priced.pollTask {node : Node Digest} {prices : Set U256} {s : NonceSystem Digest}
    (h : Priced node prices s) {i : Nat} {task : Task Digest} (htask : task ∈ s.tasks) :
    Priced node prices (pollTask node s i task) := by
  obtain ⟨start, hprice, hsends⟩ := h.tasks task htask
  have hbody := @NonceCheck.body_sat _ node.wallet start (task.check, s.counter)
    (Response.answers task.response) hsends
  have hset : ∀ check response finished, NonceCheck.Sends node.wallet start check →
      ∀ t ∈ s.tasks.set i ⟨check, response, finished⟩, ∃ start,
        start.transaction.gasPrice ∈ prices ∧ NonceCheck.Sends node.wallet start t.check := by
    intro check response finished hcheck t ht
    rcases List.mem_or_eq_of_mem_set ht with ht | rfl
    · exact h.tasks t ht
    · exact ⟨start, hprice, hcheck⟩
  unfold NonceSystem.pollTask
  split
  · rename_i check counter hflow
    rw [hflow] at hbody
    refine ⟨hset check none false hbody, ?_, h.accepted⟩
    intro j tx hmem
    rcases List.mem_append.1 hmem with hmem | hmem
    · exact h.inFlight j tx hmem
    · obtain ⟨request, hrequest, heq⟩ := Option.map_eq_some_iff.1 (Option.mem_toList.1 hmem)
      obtain ⟨-, rfl⟩ := Prod.mk.inj heq
      unfold NonceCheck.request at hrequest
      split at hrequest
      · cases hrequest
      · cases hrequest
        obtain ⟨nonce, htx⟩ := hbody.transaction
        rw [show check.transaction = _ from htx]
        exact hprice
      · cases hrequest
  · exact h
  · rename_i check counter _ _ hflow
    rw [hflow] at hbody
    exact ⟨hset check none true hbody.1, h.inFlight, h.accepted⟩

theorem Priced.process {node : Node Digest} {prices : Set U256} {s : NonceSystem Digest}
    (h : Priced node prices s) (i : Nat) {request : Request}
    (hrequest : ∀ tx, request = .sendRawTransaction tx → tx.gasPrice ∈ prices) :
    Priced node prices (processRequest node s i request) := by
  cases request with
  | transactionCount => exact h.setTask i fun _ => rfl
  | sendRawTransaction tx =>
    rw [processRequest]
    split
    · refine Priced.setTask ?_ i fun _ => rfl
      refine ⟨h.tasks, h.inFlight, ?_⟩
      intro t ht
      rcases List.mem_append.1 ht with ht | ht
      · exact h.accepted t ht
      · rw [List.mem_singleton.1 ht]
        exact hrequest tx rfl
    · exact h.setTask i fun _ => rfl

theorem Priced.step {node : Node Digest} {prices : Set U256} {s : NonceSystem Digest}
    {event : Event} (h : Priced node prices s) (hevent : CreatesAt prices event) :
    Priced node prices (step node s event) := by
  cases event with
  | create transaction =>
    refine ⟨?_, h.inFlight, h.accepted⟩
    intro task ht
    rcases List.mem_append.1 ht with ht | ht
    · exact h.tasks task ht
    · rw [List.mem_singleton.1 ht]
      have hprice : transaction.gasPrice ∈ prices := hevent
      exact ⟨sendTransactionWithNonce node.account node.chainId transaction, hprice,
        NonceCheck.sends_start _ _ _ _⟩
  | poll i =>
    rw [NonceSystem.step]
    split
    · exact h
    · rename_i task htask
      split
      · exact h
      · exact h.pollTask (List.mem_of_getElem? htask)
  | drop i => exact h.setTask i fun _ => rfl
  | process index =>
    rw [NonceSystem.step]
    split
    · exact h
    · rename_i i request hrequest
      have herase : Priced node prices { s with inFlight := s.inFlight.eraseIdx index } :=
        ⟨h.tasks, fun j tx hmem => h.inFlight j tx (List.mem_of_mem_eraseIdx hmem), h.accepted⟩
      apply herase.process i
      intro tx heq
      rw [heq] at hrequest
      exact h.inFlight i tx (List.mem_of_getElem? hrequest)
  | send tx => exact ⟨h.tasks, h.inFlight, h.accepted⟩
  | mine => exact ⟨h.tasks, h.inFlight, h.accepted⟩

/-- With one gas price nobody is outbid. -/
theorem Priced.notOutbid {node : Node Digest} {prices : Set U256} {s : NonceSystem Digest}
    (h : Priced node prices s) (hprices : prices.Subsingleton) (event : Event) :
    NotOutbid s event := by
  cases event with
  | process index =>
    intro i tx hrequest t ht _
    have hnew := h.inFlight i tx (List.mem_of_getElem? hrequest)
    rw [hprices (h.accepted t ht) hnew]
    exact BitVec.le_refl _
  | _ => trivial

theorem along_notOutbid {node : Node Digest} {prices : Set U256} (hprices : prices.Subsingleton) :
    ∀ (events : List Event) (s : NonceSystem Digest), Priced node prices s →
      (∀ event ∈ events, CreatesAt prices event) →
      Runs.Along (step node) NotOutbid s events := by
  intro events
  induction events with
  | nil => exact fun _ _ _ => trivial
  | cons event events ih =>
    intro s hs hcreates
    have hevent := hcreates event (by simp)
    refine ⟨hs.notOutbid hprices event, ih _ (hs.step hevent) ?_⟩
    exact fun e he => hcreates e (by simp [he])

theorem priced_start (node : Node Digest) (prices : Set U256) (counter : U256)
    (account : AccountPool) : Priced node prices (start counter account) :=
  ⟨fun _ h => (by cases h), fun _ _ h => (by cases h), fun _ h => (by cases h)⟩

/-! ## Two gas prices -/

/-- A call of the contract with the given gas price, as a relay makes it. -/
def relayTransaction (gasPrice : U256) : Transaction :=
  ⟨0, gasPrice, 21000, .call 0xF, 0, []⟩

/-- A node with a keystore that has the account. -/
def unlockedNode : Node Nat where
  wallet := ⟨fun tx _ => tx.nonce.toNat, fun _ _ => some [], fun tx signature _ =>
    some (tx.data ++ signature)⟩
  account := 0xA
  chainId := 1

/-- An account with one mined transaction and an empty pool. -/
def minedAccount : AccountPool := ⟨1, [], List.nodup_nil⟩

/-- Two futures with two gas prices, when the counter is one behind the account.
The first one is refused and asks for a nonce.  Before it has the answer, the
second one takes the next nonce from the counter, which is the same one, and
sends first.  Then the first one replaces it. -/
def replacingRun (low high : U256) : List Event :=
  [.create (relayTransaction high), .create (relayTransaction low),
    .poll 0, .poll 0, .process 0, .poll 0, .poll 0, .process 0,
    .poll 1, .poll 1, .process 0, .poll 0, .poll 0, .process 0]

theorem nonceRefusal_isNonceError : nonceRefusal.isNonceError = true := by decide +kernel

theorem nonces_replacingRun {low high : U256} (h : low < high) :
    (run unlockedNode (start 0 minedAccount) (replacingRun low high)).accepted.map
      Transaction.nonce = [1, 1] := by
  simp [run, replacingRun, start, step, NonceSystem.pollTask, processRequest,
    NonceSystem.setTask, NonceCheck.body, NonceCheck.request, Response.answers,
    nonceRefusal_isNonceError, AccountPool.submit, AccountPool.find, AccountPool.insert,
    AccountPool.nextNonce, minedAccount, relayTransaction, sendTransactionWithNonce, tryReady,
    prepareRawTransaction, unlockedNode, h]

/-- The nonces of the accepted transactions are distinct in every run exactly if
all futures of the node have the same gas price: for a set of gas prices, every
run whose futures have gas prices of the set keeps the nonces of the accepted
transactions distinct, if and only if the set has at most one element. -/
theorem nonces_unique_iff_one_gas_price (prices : Set U256) :
    (∀ (Digest : Type) (node : Node Digest) (counter : U256) (account : AccountPool)
      (events : List Event), (∀ event ∈ events, CreatesAt prices event) →
      ((run node (start counter account) events).accepted.map Transaction.nonce).Nodup) ↔
    prices.Subsingleton := by
  constructor
  · intro hunique p hp q hq
    by_contra hne
    -- the lower of the two prices is the one that is outbid
    have hbad : ∀ low ∈ prices, ∀ high ∈ prices, ¬ low < high := by
      intro low hlow high hhigh hlt
      have hnodup := hunique Nat unlockedNode 0 minedAccount (replacingRun low high) (by
        intro event hevent
        simp only [replacingRun, List.mem_cons, List.not_mem_nil, or_false] at hevent
        rcases hevent with rfl | rfl | rfl | rfl | rfl | rfl | rfl | rfl | rfl | rfl | rfl |
          rfl | rfl | rfl
        all_goals first | exact hhigh | exact hlow | trivial)
      rw [nonces_replacingRun hlt] at hnodup
      simp at hnodup
    have hle := hbad p hp q hq
    have hge := hbad q hq p hp
    rw [BitVec.lt_def] at hle hge
    exact hne (BitVec.eq_of_toNat_eq (by omega))
  · intro hprices Digest node counter account events hcreates
    apply accepted_nodup_of_not_outbid
    exact along_notOutbid hprices events _ (priced_start node prices counter account) hcreates

/-- Gas prices 1 and 2. -/
theorem nonces_replacingRun_one_two :
    ¬ ((run unlockedNode (start 0 minedAccount) (replacingRun 1 2)).accepted.map
      Transaction.nonce).Nodup := by
  decide +kernel

end NonceSystem

end PoaBridge
