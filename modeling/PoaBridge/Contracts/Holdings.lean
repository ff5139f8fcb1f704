import PoaBridge.Contracts.Custody
import PoaBridge.Lib.Allowances

/-!
# What the users of the token hold

A transaction is a tree of calls, any of which may be refused.  What it does to the
token is a list of entries of a ledger with allowances: `exec_statement` finds that
list for a transaction and `execAll_statement` for a run.

The entries come from two places.  Some are asked for by users, and those are among
the calls that the users have made, in the same order (`Call.entries`).  The others
are asked for by the bridge, and those are exactly its `Deposit` and `Withdraw`
events (`TokenEvent.posting?`).

`holdings_accounted` reads the general facts about such ledgers off the list.
-/

namespace PoaBridge.Contracts

open Allowances (Entry)

variable {Digest : Type}

/-! ## The token as a ledger with allowances -/

namespace BridgeableToken

/-- The token with its words as numbers. -/
def accounts (self : BridgeableToken) : Allowances.State Address where
  balance := self.ledger
  allowed := fun holder spender => (self.allowed holder spender).toNat
  supply := self.totalSupply.toNat
  owner := self.owner
  agents := self.mintAgents

/-- What the sender asks for with the call. -/
def Call.entry (sender : Address) : Call → Entry Address
  | .transfer target value => .transfer sender target value.toNat
  | .transferFrom source target value => .spend sender source target value.toNat
  | .approve spender value => .approve sender spender value.toNat
  | .mint receiver amount => .mint sender receiver (amount * ether).toNat
  | .setMintAgent agent state => .appoint sender agent state
  | .transferOwnership newOwner => .handOver sender newOwner

theorem Call.actor_entry (sender : Address) (call : Call) : (call.entry sender).actor = sender := by
  cases call <;> rfl

variable {token token' : BridgeableToken}

theorem accounts_addBalance {account : Address} {value : U256}
    (h : token.addBalance account value = some token') :
    token'.accounts = { token.accounts with
      balance := Ledger.credit token.ledger account value.toNat } := by
  have hledger := (addBalance_eq_some h).1
  obtain ⟨balance, -, h⟩ := Option.bind_eq_some_iff.1 h
  unfold accounts
  rw [hledger, ← Option.some.inj h]

theorem accounts_subBalance {account : Address} {value : U256}
    (h : token.subBalance account value = some token') :
    token'.accounts = { token.accounts with
      balance := Ledger.debit token.ledger account value.toNat } := by
  have hledger := (subBalance_eq_some h).2.1
  obtain ⟨balance, -, h⟩ := Option.bind_eq_some_iff.1 h
  unfold accounts
  rw [hledger, ← Option.some.inj h]

theorem accounts_setAllowed (token : BridgeableToken) (holder spender : Address) (value : U256) :
    (token.setAllowed holder spender value).accounts = { token.accounts with
      allowed := Allowances.allow token.accounts.allowed holder spender value.toNat } := by
  have hallowed : (token.setAllowed holder spender value).accounts.allowed
      = Allowances.allow token.accounts.allowed holder spender value.toNat := by
    funext h s
    by_cases hsame : holder = h ∧ spender = s
    · obtain ⟨rfl, rfl⟩ := hsame
      rw [Allowances.allow_self]
      unfold accounts setAllowed
      simp
    · rw [Allowances.allow_of_ne _ _ hsame]
      unfold accounts setAllowed
      dsimp only
      by_cases hholder : h = holder
      · subst hholder
        have hspender : s ≠ spender := fun heq => hsame ⟨rfl, heq.symm⟩
        rw [Function.update_self, Function.update_of_ne hspender]
      · rw [Function.update_of_ne hholder]
  rw [← hallowed]
  rfl

theorem apply_transfer {sender target : Address} {value : U256}
    (h : token.transfer sender target value = some token') :
    Allowances.apply token.accounts (.transfer sender target value.toNat)
      = some token'.accounts := by
  have hcovered := (transfer_eq_some h).1
  obtain ⟨middle, hsub, hadd⟩ := Option.bind_eq_some_iff.1 h
  have hledger := (subBalance_eq_some hsub).2.1
  rw [accounts_addBalance hadd, accounts_subBalance hsub, hledger]
  exact if_pos hcovered

theorem apply_transferFrom {sender source target : Address} {value : U256}
    (h : token.transferFrom sender source target value = some token') :
    Allowances.apply token.accounts (.spend sender source target value.toNat)
      = some token'.accounts := by
  obtain ⟨added, hadd, h⟩ := Option.bind_eq_some_iff.1 h
  obtain ⟨moved, hsub, h⟩ := Option.bind_eq_some_iff.1 h
  obtain ⟨remaining, hremaining, h⟩ := Option.bind_eq_some_iff.1 h
  obtain ⟨hallowance, hremaining⟩ := safeSub_eq_some hremaining
  have hcredited := (addBalance_eq_some hadd).1
  have hcovered := (subBalance_eq_some hsub).1
  rw [hcredited] at hcovered
  rw [← Option.some.inj h, accounts_setAllowed, accounts_subBalance hsub,
    accounts_addBalance hadd, hremaining, hcredited]
  exact if_pos ⟨hallowance, hcovered⟩

/-- A call of the token is one entry. -/
theorem apply_call {sender : Address} {call : Call} (h : token.call sender call = some token') :
    Allowances.apply token.accounts (call.entry sender) = some token'.accounts := by
  cases call with
  | transfer target value => exact apply_transfer h
  | transferFrom source target value => exact apply_transferFrom h
  | approve spender value =>
    unfold BridgeableToken.call approve at h
    rw [require_bind_eq_some] at h
    rw [← Option.some.inj h.2, accounts_setAllowed]
    rfl
  | mint receiver amount =>
    unfold BridgeableToken.call mint at h
    simp only [require_bind_eq_some] at h
    obtain ⟨hagent, -, h⟩ := h
    obtain ⟨totalSupply, hsupply, h⟩ := Option.bind_eq_some_iff.1 h
    rw [accounts_addBalance h]
    unfold accounts
    rw [safeAdd_eq_some hsupply]
    exact if_pos hagent
  | setMintAgent agent state =>
    unfold BridgeableToken.call setMintAgent at h
    simp only [require_bind_eq_some] at h
    obtain ⟨howner, -, h⟩ := h
    rw [← Option.some.inj h]
    exact if_pos howner
  | transferOwnership newOwner =>
    unfold BridgeableToken.call transferOwnership at h
    simp only [require_bind_eq_some] at h
    obtain ⟨howner, -, h⟩ := h
    rw [← Option.some.inj h]
    exact if_pos howner

end BridgeableToken

/-- What the bridge asks of the token with the event. -/
def TokenEvent.posting? (bridge : Address) : TokenEvent → Option (Entry Address)
  | .tokenAddress _ => none
  | .deposit recipient value => some (.transfer bridge recipient value.toNat)
  | .withdraw recipient value _ => some (.spend bridge recipient bridge value.toNat)

namespace Custody

mutual

/-- What the users ask of the token in the transaction.  `approveAndCall` does not ask
for an allowance of zero first. -/
def Call.entries {deployment : Deployment} : Call deployment → List (Entry Address)
  | .token sender call => [call.entry sender.val]
  | .approveAndCall sender spender tokens code _ =>
    .approve sender.val spender tokens.toNat :: Call.entriesAll code
  | .bridge _ _ => []

def Call.entriesAll {deployment : Deployment} : List (Call deployment) → List (Entry Address)
  | [] => []
  | call :: calls => Call.entries call ++ Call.entriesAll calls

end

/-! ## The statement of a transaction -/

/-- The entries between two states of the chain, where the users have asked for some. -/
structure Recorded (env : CustodyEnv Digest) (chain chain' : Chain Digest)
    (asked entries : List (Entry Address)) (events : List TokenEvent) : Prop where
  run : Allowances.run chain.tokens.accounts entries = some chain'.tokens.accounts
  logs : chain'.bridge.tokenLogs = chain.bridge.tokenLogs ++ events
  bridge : entries.filter (fun entry => entry.actor = env.bridge)
    = events.filterMap (TokenEvent.posting? env.bridge)
  users : (entries.filter fun entry => entry.actor ≠ env.bridge).Sublist asked

def Statement (env : CustodyEnv Digest) (asked : List (Entry Address))
    (chain chain' : Chain Digest) : Prop :=
  ∃ entries events, Recorded env chain chain' asked entries events

section Steps

variable {env : CustodyEnv Digest} {chain middle chain' : Chain Digest}
  {asked asked' : List (Entry Address)}

/-- What is asked for may be refused. -/
theorem Statement.refused (asked : List (Entry Address)) : Statement env asked chain chain :=
  ⟨[], [], rfl, (List.append_nil _).symm, rfl, List.nil_sublist _⟩

theorem Statement.append (h : Statement env asked chain middle)
    (h' : Statement env asked' middle chain') :
    Statement env (asked ++ asked') chain chain' := by
  obtain ⟨entries, events, hentries⟩ := h
  obtain ⟨entries', events', hentries'⟩ := h'
  refine ⟨entries ++ entries', events ++ events',
    Allowances.run_append hentries.run hentries'.run, ?_, ?_, ?_⟩
  · rw [hentries'.logs, hentries.logs, List.append_assoc]
  · rw [List.filter_append, List.filterMap_append, hentries.bridge, hentries'.bridge]
  · rw [List.filter_append]
    exact hentries.users.append hentries'.users

/-- A user asks for one entry and gets it. -/
theorem statement_user {tokens : BridgeableToken} {entry : Entry Address}
    (hactor : entry.actor ≠ env.bridge)
    (happly : Allowances.apply chain.tokens.accounts entry = some tokens.accounts) :
    Statement env [entry] chain { chain with tokens := tokens } := by
  refine ⟨[entry], [], Allowances.run_singleton happly, (List.append_nil _).symm, ?_, ?_⟩
  · simp [hactor]
  · exact List.filter_sublist

/-- The bridge asks for the entry of its event. -/
theorem statement_event {event : TokenEvent} {entry : Entry Address}
    (hevent : event.posting? env.bridge = some entry) (hactor : entry.actor = env.bridge)
    (happly : Allowances.apply chain.tokens.accounts entry = some chain'.tokens.accounts)
    (hlogs : chain'.bridge.tokenLogs = chain.bridge.tokenLogs ++ [event]) :
    Statement env [] chain chain' := by
  refine ⟨[entry], [event], Allowances.run_singleton happly, hlogs, ?_, ?_⟩
  · simp [hactor, hevent]
  · simp [hactor]

/-- The other calls of the bridge move no tokens. -/
theorem statement_of_logs {events : List TokenEvent} (htokens : chain'.tokens = chain.tokens)
    (hlogs : chain'.bridge.tokenLogs = chain.bridge.tokenLogs ++ events)
    (hevents : ∀ event ∈ events, event.posting? env.bridge = none) :
    Statement env [] chain chain' := by
  refine ⟨[], events, ?_, hlogs, ?_, List.nil_sublist _⟩
  · rw [htokens]
    rfl
  · exact (List.filterMap_eq_nil_iff.2 hevents).symm

/-- A call without an event of the token. -/
theorem statement_of_silent (htokens : chain'.tokens = chain.tokens)
    (hlogs : chain'.bridge.tokenLogs = chain.bridge.tokenLogs) :
    Statement env [] chain chain' := by
  refine statement_of_logs htokens (hlogs.trans (List.append_nil _).symm) ?_
  exact fun _ hmem => absurd hmem List.not_mem_nil

theorem statement_receiveApproval {sender source : Address} {value : U256}
    (hcall : chain.receiveApproval env.foreign sender source value = some chain') :
    Statement env [] chain chain' := by
  have hdone := ForeignChain.receiveApproval_cases hcall
  have hexecuted := hdone.executed
  change (if chain.bridge.erc20token = env.token then _ else none) = _ at hexecuted
  obtain ⟨-, htransfer⟩ := Option.ite_none_right_eq_some.1 hexecuted
  have hevent : (TokenEvent.withdraw source value chain.bridge.homeGasPrice).posting? env.bridge
      = some (.spend env.bridge source env.bridge value.toNat) := rfl
  refine statement_event hevent rfl (BridgeableToken.apply_transferFrom htransfer) ?_
  rw [hdone.bridge]
  rfl

variable [DecidableEq Digest]

theorem statement_deposit {sender : Address} {payout : Truffle.Payout}
    (hcall : chain.deposit env.foreign sender payout = some chain') :
    Statement env [] chain chain' := by
  have hdone := ForeignChain.deposit_cases hcall
  have hlogs := hdone.logs
  split at hlogs
  · rename_i hreached
    have hexecuted := hdone.executed hreached
    change (if chain.bridge.erc20token = env.token then _ else none) = _ at hexecuted
    obtain ⟨-, htransfer⟩ := Option.ite_none_right_eq_some.1 hexecuted
    have hevent : (TokenEvent.deposit payout.recipient payout.value).posting? env.bridge
        = some (.transfer env.bridge payout.recipient payout.value.toNat) := rfl
    exact statement_event hevent rfl (BridgeableToken.apply_transfer htransfer) hlogs
  · rename_i hreached
    exact statement_of_silent (hdone.pending hreached) (hlogs.trans (List.append_nil _))

/-- A call of the bridge from outside. -/
theorem statement_bridge {call : ForeignChain.Call}
    (hcall : chain.exec env.foreign call = some chain') : Statement env [] chain chain' := by
  cases call with
  | setTokenAddress sender token =>
    obtain ⟨bridge, hbridge, hcall⟩ := Option.bind_eq_some_iff.1 hcall
    rw [← Option.some.inj hcall]
    unfold ForeignContract.setTokenAddress at hbridge
    simp only [require_bind_eq_some] at hbridge
    obtain ⟨-, -, hbridge⟩ := hbridge
    split at hbridge
    all_goals rw [← Option.some.inj hbridge]
    · refine @statement_of_logs _ _ _ _ [.tokenAddress token] rfl rfl ?_
      intro event hmem
      rw [List.mem_singleton.1 hmem]
      rfl
    · exact statement_of_silent rfl rfl
  | deposit sender payout => exact statement_deposit hcall
  | receiveApproval sender source value => exact statement_receiveApproval hcall
  | submitSignature submission =>
    obtain ⟨collection, hcollection, hcall⟩ := Option.bind_eq_some_iff.1 hcall
    rw [← Option.some.inj hcall]
    exact statement_of_silent rfl rfl

mutual

/-- A transaction with everything below it. -/
theorem exec_statement {chain chain' : Chain Digest} :
    ∀ call : Call env.toDeployment, exec env chain call = some chain' →
      Statement env call.entries chain chain'
  | .token sender call, hcall => by
    rw [exec] at hcall
    obtain ⟨tokens, htokens, hcall⟩ := Option.bind_eq_some_iff.1 hcall
    rw [← Option.some.inj hcall, Call.entries]
    have hactor : (call.entry sender.val).actor ≠ env.bridge := by
      rw [BridgeableToken.Call.actor_entry]
      exact sender.property.1
    exact statement_user hactor (BridgeableToken.apply_call htokens)
  | .approveAndCall sender spender tokens code accepts, hcall => by
    have happroved : Statement env [.approve sender.val spender tokens.toNat] chain
        (approve chain sender.val spender tokens) := by
      refine statement_user sender.property.1 ?_
      rw [BridgeableToken.accounts_setAllowed]
      rfl
    rw [Call.entries, ← List.singleton_append]
    refine happroved.append ?_
    rw [exec] at hcall
    split at hcall
    · -- the bridge asks for its part by itself
      have hreceived := (statement_receiveApproval hcall).append
        (Statement.refused (Call.entriesAll code))
      rwa [List.nil_append] at hreceived
    · split at hcall
      · cases hcall
      · rw [require_bind_eq_some] at hcall
        rw [← Option.some.inj hcall.2]
        exact execAll_statement code
  | .bridge call _, hcall => by
    rw [exec] at hcall
    rw [Call.entries]
    exact statement_bridge hcall

theorem execAll_statement {chain : Chain Digest} :
    ∀ calls : List (Call env.toDeployment),
      Statement env (Call.entriesAll calls) chain (execAll env chain calls)
  | [] => by
    rw [execAll]
    exact .refused _
  | call :: calls => by
    rw [execAll, Call.entriesAll]
    cases hcall : exec env chain call with
    | none => exact (Statement.refused _).append (execAll_statement calls)
    | some chain' => exact (exec_statement call hcall).append (execAll_statement calls)

end

theorem run_eq_execAll (calls : List (Call env.toDeployment)) :
    run env chain calls = execAll env chain calls := by
  induction calls generalizing chain with
  | nil => rw [execAll]; rfl
  | cons call calls ih =>
    rw [execAll]
    exact ih

/-- Every run has a statement. -/
theorem run_statement (chain : Chain Digest) (calls : List (Call env.toDeployment)) :
    Statement env (Call.entriesAll calls) chain (run env chain calls) := by
  rw [run_eq_execAll]
  exact execAll_statement calls

omit [DecidableEq Digest]

/-- An entry is asked for by a user, or it is the entry of an event. -/
theorem Recorded.asked_or_event {entries : List (Entry Address)} {events : List TokenEvent}
    (h : Recorded env chain chain' asked entries events) {entry : Entry Address}
    (hmem : entry ∈ entries) :
    (entry.actor ≠ env.bridge ∧ entry ∈ asked) ∨
      (entry.actor = env.bridge ∧ ∃ event ∈ events, event.posting? env.bridge = some entry) := by
  by_cases hactor : entry.actor = env.bridge
  · have hbridge : entry ∈ entries.filter fun e => e.actor = env.bridge :=
      List.mem_filter.2 ⟨hmem, decide_eq_true hactor⟩
    rw [h.bridge] at hbridge
    exact .inr ⟨hactor, List.mem_filterMap.1 hbridge⟩
  · exact .inl ⟨hactor, h.users.subset (List.mem_filter.2 ⟨hmem, decide_eq_true hactor⟩)⟩

/-- An account that asks for nothing and has approved nobody loses nothing. -/
theorem Recorded.le_of_silent {entries : List (Entry Address)} {events : List TokenEvent}
    (h : Recorded env chain chain' asked entries events) {a : Address} (ha : a ≠ env.bridge)
    (hsilent : ∀ entry ∈ asked, entry.actor ≠ a)
    (hallowed : ∀ spender, chain.tokens.allowance a spender = 0) :
    chain.tokens.ledger a ≤ chain'.tokens.ledger a := by
  have haccounted := Allowances.run_accounted h.run
  have hactor : ∀ entry ∈ entries, entry.actor ≠ a := by
    intro entry hmem
    rcases h.asked_or_event hmem with ⟨-, hasked⟩ | ⟨hbridge, -⟩
    · exact hsilent entry hasked
    · rw [hbridge]
      exact Ne.symm ha
  have hspent : ∀ spender, Allowances.tally (Entry.spent a spender) entries = 0 := by
    intro spender
    have happroved : Allowances.tally (Entry.approved a spender) entries = 0 := by
      rw [Allowances.tally_eq_zero]
      intro entry hmem
      cases entry with
      | approve holder spender' amount => exact if_neg fun heq => hactor _ hmem heq.1
      | transfer | spend | mint | appoint | handOver => rfl
    have hle := haccounted.allowance a spender
    have hzero : chain.tokens.accounts.allowed a spender = 0 :=
      congrArg BitVec.toNat (hallowed spender)
    omega
  have hbalance := haccounted.balance a
  rw [Allowances.outgoing_eq_zero hactor hspent, Nat.add_zero] at hbalance
  exact (Nat.le_add_right _ _).trans hbalance.ge

/-- The entries of the bridge give nobody a right to create tokens. -/
theorem Recorded.appointsIn {T : Set Address} {entries : List (Entry Address)}
    {events : List TokenEvent} (h : Recorded env chain chain' asked entries events)
    (happoints : ∀ entry ∈ asked, entry.actor ∈ T → entry.AppointsIn T) :
    ∀ entry ∈ entries, entry.actor ∈ T → entry.AppointsIn T := by
  intro entry hmem
  rcases h.asked_or_event hmem with ⟨-, hasked⟩ | ⟨-, event, -, hevent⟩
  · exact happoints entry hasked
  · intro _
    cases event with
    | tokenAddress token => cases hevent
    | deposit recipient value | withdraw recipient value homeGasPrice =>
      rw [← Option.some.inj hevent]
      exact trivial

end Steps

/-- What every account holds after any run of transactions, from any state of the two
contracts.

There is one list of entries for the whole run.  Those of the bridge are its `Deposit`
and `Withdraw` events, the others are among the calls of the users.  The balance of
every account is what it had and what came in, less what went out.  What a spender has
taken from an account and what it may still take was approved by that account.  The
supply is what it was and what agents created.

An account that makes no calls and has approved nobody loses nothing, whatever the
others do.  Accounts that appoint only one another are the only ones that create tokens,
if the owner and the agents are among them. -/
theorem holdings_accounted [DecidableEq Digest] (env : CustodyEnv Digest) (start : Chain Digest)
    (calls : List (Call env.toDeployment)) :
    let chain := run env start calls
    let asked := Call.entriesAll calls
    ∃ entries events,
      chain.bridge.tokenLogs = start.bridge.tokenLogs ++ events ∧
      entries.filter (fun entry => entry.actor = env.bridge)
        = events.filterMap (TokenEvent.posting? env.bridge) ∧
      (entries.filter fun entry => entry.actor ≠ env.bridge).Sublist asked ∧
      (∀ a, chain.tokens.ledger a + Allowances.tally (Entry.outgoing a) entries
        = start.tokens.ledger a + Allowances.tally (Entry.incoming a) entries) ∧
      (∀ holder spender, Allowances.tally (Entry.spent holder spender) entries
          + (chain.tokens.allowance holder spender).toNat
        ≤ (start.tokens.allowance holder spender).toNat
          + Allowances.tally (Entry.approved holder spender) entries) ∧
      chain.tokens.totalSupply.toNat
        = start.tokens.totalSupply.toNat + Allowances.tally Entry.minted entries ∧
      (∀ a, a ≠ env.bridge → (∀ entry ∈ asked, entry.actor ≠ a) →
        (∀ spender, start.tokens.allowance a spender = 0) →
          start.tokens.ledger a ≤ chain.tokens.ledger a) ∧
      ∀ T : Set Address, Allowances.Trusts T start.tokens.accounts →
        (∀ entry ∈ asked, entry.actor ∈ T → entry.AppointsIn T) →
          Allowances.Trusts T chain.tokens.accounts ∧
            ∀ entry ∈ entries, entry.Mints → entry.actor ∈ T := by
  intro chain asked
  obtain ⟨entries, events, hrecorded⟩ := @run_statement _ env _ start calls
  have haccounted := Allowances.run_accounted hrecorded.run
  exact ⟨entries, events, hrecorded.logs, hrecorded.bridge, hrecorded.users, haccounted.balance,
    haccounted.allowance, haccounted.supply, fun a ha => hrecorded.le_of_silent ha,
    fun T htrusts happoints =>
      Allowances.run_trusted hrecorded.run htrusts (hrecorded.appointsIn happoints)⟩

/-- One user mints, withdraws from inside the code of a spender, and pays a deposit to
that spender, who never makes a call of its own. -/
theorem holdings_accounted_nested : ∃ start : Chain Bytes,
    deploy 1 [0xa1] 0xa1 = some start ∧
      let chain := run pairedEnv start (tokenSet ++ tokensWithdrawn)
      start.tokens.ledger 0xd1 ≤ chain.tokens.ledger 0xd1 ∧
        ∀ a, chain.tokens.mintAgents a = true → a = 0xa1 := by
  refine ⟨_, rfl, ?_⟩
  obtain ⟨entries, events, -, -, -, -, -, -, hsilent, htrusted⟩ :=
    holdings_accounted pairedEnv _ (tokenSet ++ tokensWithdrawn)
  refine ⟨hsilent 0xd1 (by decide) (by decide) fun _ => rfl, ?_⟩
  obtain ⟨⟨-, hagents⟩, -⟩ := htrusted {0xa1} ⟨rfl, fun _ h => nomatch h⟩ (by
    intro entry hmem
    simp only [tokenSet, tokensWithdrawn, List.cons_append, List.nil_append, Call.entriesAll,
      Call.entries, BridgeableToken.Call.entry, List.mem_cons, List.not_mem_nil, or_false] at hmem
    rcases hmem with rfl | rfl | rfl | rfl | rfl
    · exact fun _ _ => rfl
    all_goals exact fun _ => trivial)
  exact hagents

end Custody

end PoaBridge.Contracts
