import PoaBridge.Contracts.Deposits
import PoaBridge.Lib.Ballot

/-!
# Who decides about the token

`setTokenAddress` of `contracts/bridge.sol` is a ballot: the authorities vote for the
address of a token, and the address becomes the token of the bridge with the vote
that reaches the threshold.

`Records` says how the two mappings of the contract are the state of a ballot, and
`records_step` is the simulation: a transaction is a vote, or it leaves the ballot
alone.  The results of the library are read off for the contract in `token_governed`.
A consequence of the counters, which are never reset, is that a token that has been
replaced can never be set again.
-/

namespace PoaBridge.Contracts

variable {Digest τ : Type}

/-- The tokens of the `TokenAddress` events. -/
def TokenEvent.token? : TokenEvent → Option Address
  | .tokenAddress token => some token
  | _ => none

namespace ForeignChain

/-- The tokens that have been set, in order. -/
def tokensSet (self : ForeignChain Digest τ) : List Address :=
  self.bridge.tokenLogs.filterMap TokenEvent.token?

/-- The vote of a transaction, if its sender is an authority. -/
def Input.vote (authorities : List Address) : Input τ → Option (Address × Address)
  | .call (.setTokenAddress sender token) =>
    if authorities.contains sender then some (sender, token) else none
  | _ => none

/-- The votes of a list of transactions. -/
def votes (authorities : List Address) (inputs : List (Input τ)) : List (Address × Address) :=
  inputs.filterMap (Input.vote authorities)

/-- The authorities that have called `setTokenAddress` for the token. -/
def supporters (authorities : List Address) (inputs : List (Input τ)) (token : Address) :
    Finset Address :=
  Ballot.votersOf (votes authorities inputs) token

/-- The contract keeps the state of the ballot in its mappings. -/
structure Records (env : ForeignEnv Digest τ) (requiredSignatures : Nat)
    (authorities : List Address) (ballot : Ballot.State Address Address)
    (chain : ForeignChain Digest τ) : Prop where
  requiredSignatures_eq : chain.bridge.requiredSignatures = requiredSignatures
  authorities_eq : chain.bridge.authorities = fun a => authorities.contains a
  marks : ∀ voter token, chain.bridge.tokenAddressAprrovalSigns (env.tokenSender voter token)
    = decide (voter ∈ ballot.voters token)
  numbers : ∀ token, chain.bridge.numTokenAddressAprrovalSigns token = (ballot.voters token).card
  events : chain.tokensSet = ballot.passed
  token : chain.bridge.erc20token = ballot.passed.getLast?.getD 0

section Simulation

variable {env : ForeignEnv Digest τ} {requiredSignatures : Nat} {authorities : List Address}
  {ballot : Ballot.State Address Address} {chain chain' : ForeignChain Digest τ}

theorem tokenSender_inj (hkeccak : Function.Injective env.keccak256) {a b token token' : Address}
    (h : env.tokenSender a token = env.tokenSender b token') : a = b ∧ token = token' := by
  obtain ⟨ha, htoken⟩ := List.append_inj (hkeccak h) (by simp)
  exact ⟨addressBytes_inj ha, addressBytes_inj htoken⟩

variable [DecidableEq Digest]

/-- What a vote that is counted leaves. -/
theorem records_vote (hkeccak : Function.Injective env.keccak256)
    (h : Records env requiredSignatures authorities ballot chain) {sender token : Address}
    (hnew : sender ∉ ballot.voters token) {bridge : ForeignContract Digest}
    (hbridge : chain.bridge.setTokenAddress env sender token = some bridge) :
    Records env requiredSignatures authorities
      (Ballot.count requiredSignatures ballot sender token) { chain with bridge := bridge } := by
  have hcard := Finset.card_insert_of_notMem hnew
  have hmarks : ∀ voter other, Function.update chain.bridge.tokenAddressAprrovalSigns
      (env.tokenSender sender token) true (env.tokenSender voter other)
        = decide (voter ∈ (Ballot.count requiredSignatures ballot sender token).voters other) := by
    intro voter other
    by_cases hother : other = token
    · subst hother
      by_cases hvoter : voter = sender
      · rw [hvoter, Function.update_self]
        simp
      · rw [Function.update_of_ne fun heq => hvoter (tokenSender_inj hkeccak heq).1, h.marks]
        simp [hvoter]
    · rw [Function.update_of_ne fun heq => hother (tokenSender_inj hkeccak heq).2, h.marks]
      simp [Ballot.voters_count_of_ne hother]
  have hnumbers : ∀ other, Function.update chain.bridge.numTokenAddressAprrovalSigns token
      (chain.bridge.numTokenAddressAprrovalSigns token + 1) other
        = ((Ballot.count requiredSignatures ballot sender token).voters other).card := by
    intro other
    by_cases hother : other = token
    · subst hother
      rw [Function.update_self, Ballot.voters_count_self, hcard, h.numbers]
    · rw [Function.update_of_ne hother, Ballot.voters_count_of_ne hother, h.numbers]
  have hreached : chain.bridge.numTokenAddressAprrovalSigns token + 1
        = chain.bridge.requiredSignatures ↔
      (insert sender (ballot.voters token)).card = requiredSignatures := by
    rw [h.numbers, h.requiredSignatures_eq, hcard]
  unfold ForeignContract.setTokenAddress at hbridge
  simp only [require_bind_eq_some] at hbridge
  obtain ⟨-, -, hbridge⟩ := hbridge
  -- the event and the new token come with the vote that reaches the threshold
  split at hbridge
  · rename_i hsigned
    have hpassed : (Ballot.count requiredSignatures ballot sender token).passed
        = ballot.passed ++ [token] := if_pos (hreached.1 hsigned)
    rw [← Option.some.inj hbridge]
    refine ⟨h.requiredSignatures_eq, h.authorities_eq, hmarks, hnumbers, ?_, ?_⟩
    · rw [hpassed, ← h.events]
      exact List.filterMap_append ..
    · rw [hpassed, List.getLast?_concat]
      rfl
  · rename_i hsigned
    have hpassed : (Ballot.count requiredSignatures ballot sender token).passed
        = ballot.passed := if_neg (hsigned ∘ hreached.2)
    rw [← Option.some.inj hbridge]
    refine ⟨h.requiredSignatures_eq, h.authorities_eq, hmarks, hnumbers, ?_, ?_⟩
    · rw [hpassed]
      exact h.events
    · rw [hpassed]
      exact h.token

/-- The call succeeds for an authority that has not voted for the token yet, and for
nobody else. -/
theorem setTokenAddress_isSome
    (h : Records env requiredSignatures authorities ballot chain) (sender token : Address) :
    (chain.bridge.setTokenAddress env sender token).isSome = true ↔
      authorities.contains sender = true ∧ sender ∉ ballot.voters token := by
  unfold ForeignContract.setTokenAddress
  rw [Option.isSome_iff_exists]
  simp only [require_bind_eq_some, h.authorities_eq, h.marks]
  constructor
  · rintro ⟨bridge, hauthority, hmark, -⟩
    exact ⟨hauthority, by simpa using hmark⟩
  · rintro ⟨hauthority, hnew⟩
    have hmark : decide (sender ∈ ballot.voters token) = false := by simpa using hnew
    by_cases hsigned : chain.bridge.numTokenAddressAprrovalSigns token + 1
        = chain.bridge.requiredSignatures
    · exact ⟨_, hauthority, hmark, if_pos hsigned⟩
    · exact ⟨_, hauthority, hmark, if_neg hsigned⟩

/-- The other transactions do not touch the ballot. -/
theorem records_frame (h : Records env requiredSignatures authorities ballot chain)
    {input : Input τ} (hinput : ∀ sender token, input ≠ .call (.setTokenAddress sender token))
    (haccept : chain.accept env input = some chain') :
    Records env requiredSignatures authorities ballot chain' := by
  cases input with
  | tokens next =>
    rw [← Option.some.inj haccept]
    exact ⟨h.requiredSignatures_eq, h.authorities_eq, h.marks, h.numbers, h.events, h.token⟩
  | call call => cases call with
  | setTokenAddress sender token => exact absurd rfl (hinput sender token)
  | deposit sender payout =>
    have hdeposit : chain.deposit env sender payout = some chain' := haccept
    unfold deposit at hdeposit
    simp only [require_bind_eq_some] at hdeposit
    obtain ⟨-, -, -, hdeposit⟩ := hdeposit
    split at hdeposit
    · obtain ⟨tokens, -, hdeposit⟩ := Option.bind_eq_some_iff.1 hdeposit
      rw [← Option.some.inj hdeposit]
      refine ⟨h.requiredSignatures_eq, h.authorities_eq, h.marks, h.numbers, ?_, h.token⟩
      rw [← h.events]
      exact (List.filterMap_append ..).trans (List.append_nil _)
    · rw [← Option.some.inj hdeposit]
      exact ⟨h.requiredSignatures_eq, h.authorities_eq, h.marks, h.numbers, h.events, h.token⟩
  | receiveApproval sender source value =>
    have hbridge := (receiveApproval_cases haccept).bridge
    refine ⟨?_, ?_, ?_, ?_, ?_, ?_⟩
    · rw [hbridge]
      exact h.requiredSignatures_eq
    · rw [hbridge]
      exact h.authorities_eq
    · rw [hbridge]
      exact h.marks
    · rw [hbridge]
      exact h.numbers
    · rw [← h.events, tokensSet, hbridge]
      exact (List.filterMap_append ..).trans (List.append_nil _)
    · rw [hbridge]
      exact h.token
  | submitSignature submission =>
    obtain ⟨collection, hcollection, haccept⟩ := Option.bind_eq_some_iff.1 haccept
    obtain ⟨-, -, rfl⟩ := ForeignBridge.submitSignature_eq_some.1 hcollection
    rw [← Option.some.inj haccept]
    exact ⟨h.requiredSignatures_eq, h.authorities_eq, h.marks, h.numbers, h.events, h.token⟩

/-- The simulation: a transaction is a vote of an authority, or it leaves the ballot
alone. -/
theorem records_step (hkeccak : Function.Injective env.keccak256) {votes : List (Address × Address)}
    (h : Records env requiredSignatures authorities
      (Ballot.run requiredSignatures Ballot.empty votes) chain) (input : Input τ) :
    Records env requiredSignatures authorities
      (Ballot.run requiredSignatures Ballot.empty (votes ++ (input.vote authorities).toList))
      (Runs.attempt (accept env) chain input) := by
  by_cases hinput : ∃ sender token, input = .call (.setTokenAddress sender token)
  · obtain ⟨sender, token, rfl⟩ := hinput
    have hsome := setTokenAddress_isSome h sender token
    rw [Input.vote, Runs.attempt, accept, exec]
    by_cases hauthority : authorities.contains sender = true
    · rw [if_pos hauthority, Option.toList_some, Ballot.run_concat, Runs.attempt]
      cases hbridge : chain.bridge.setTokenAddress env sender token with
      | none =>
        rw [hbridge] at hsome
        have hvoted := of_not_not fun hnew => by simpa using hsome.2 ⟨hauthority, hnew⟩
        rw [Ballot.cast_of_mem hvoted]
        exact h
      | some bridge =>
        rw [hbridge] at hsome
        have hnew := (hsome.1 rfl).2
        rw [Ballot.cast_of_not_mem hnew]
        exact records_vote hkeccak h hnew hbridge
    · rw [if_neg hauthority, Option.toList_none, List.append_nil]
      cases hbridge : chain.bridge.setTokenAddress env sender token with
      | none => exact h
      | some bridge =>
        rw [hbridge] at hsome
        exact absurd (hsome.1 rfl).1 hauthority
  · have hother : ∀ sender token, input ≠ .call (.setTokenAddress sender token) :=
      fun sender token heq => hinput ⟨sender, token, heq⟩
    have hvote : input.vote authorities = none := by
      unfold Input.vote
      split
      · rename_i sender token
        exact absurd rfl (hother sender token)
      · rfl
    rw [hvote, Option.toList_none, List.append_nil, Runs.attempt]
    cases haccept : chain.accept env input with
    | none => exact h
    | some chain' => exact records_frame h hother haccept

theorem records_run (hkeccak : Function.Injective env.keccak256) {tokens : τ}
    {start : ForeignChain Digest τ} (hdeploy : deploy requiredSignatures authorities tokens
      = some start) (inputs : List (Input τ)) :
    Records env requiredSignatures authorities
      (Ballot.run requiredSignatures Ballot.empty (votes authorities inputs))
      (start.run env inputs) := by
  induction inputs using List.reverseRecOn with
  | nil =>
    obtain ⟨bridge, hbridge, hstart⟩ := Option.bind_eq_some_iff.1 hdeploy
    obtain ⟨collection, hcollection, hbridge⟩ := Option.bind_eq_some_iff.1 hbridge
    unfold ForeignBridge.deploy at hcollection
    simp only [require_bind_eq_some] at hcollection
    rw [← Option.some.inj hstart, ← Option.some.inj hbridge, ← Option.some.inj hcollection.2.2]
    exact ⟨rfl, rfl, fun voter _ => (decide_eq_false (Finset.notMem_empty voter)).symm,
      fun _ => Finset.card_empty.symm, rfl, rfl⟩
  | append_singleton inputs input ih =>
    have hvotes : votes authorities (inputs ++ [input])
        = votes authorities inputs ++ (input.vote authorities).toList := by
      rw [votes, List.filterMap_append, List.filterMap_cons]
      cases input.vote authorities <;> rfl
    rw [hvotes]
    have hrun : start.run env (inputs ++ [input])
        = Runs.attempt (accept env) (start.run env inputs) input := List.foldl_concat ..
    rw [hrun]
    exact records_step hkeccak ih input

end Simulation

theorem vote_eq_some {authorities : List Address} {input : Input τ} {sender token : Address}
    (h : input.vote authorities = some (sender, token)) :
    input = .call (.setTokenAddress sender token) ∧ sender ∈ authorities := by
  unfold Input.vote at h
  split at h
  · split at h
    · rename_i hauthority
      cases h
      exact ⟨rfl, List.contains_iff_mem.1 hauthority⟩
    · cases h
  · cases h

/-- The transaction that changes the token. -/
theorem vote_of_token_changed {env : ForeignEnv Digest τ} {requiredSignatures : Nat}
    {authorities : List Address} {votes : List (Address × Address)} {input : Input τ}
    {chain chain' : ForeignChain Digest τ}
    (h : Records env requiredSignatures authorities
      (Ballot.run requiredSignatures Ballot.empty votes) chain)
    (h' : Records env requiredSignatures authorities
      (Ballot.run requiredSignatures Ballot.empty (votes ++ (input.vote authorities).toList))
      chain')
    (hchanged : chain'.bridge.erc20token ≠ chain.bridge.erc20token) :
    ∃ sender token, input = .call (.setTokenAddress sender token) ∧ sender ∈ authorities ∧
      sender ∉ Ballot.votersOf votes token ∧
      (Ballot.votersOf votes token).card + 1 = requiredSignatures ∧
      chain'.bridge.erc20token = token := by
  rw [h.token, h'.token] at hchanged
  rw [h'.token]
  cases hvote : input.vote authorities with
  | none =>
    rw [hvote, Option.toList_none, List.append_nil] at hchanged
    exact absurd rfl hchanged
  | some vote =>
    obtain ⟨sender, token⟩ := vote
    obtain ⟨hinput, hauthority⟩ := vote_eq_some hvote
    have hvoters := Ballot.voters_run requiredSignatures votes token
    rw [hvote, Option.toList_some, Ballot.run_concat, Runs.attempt] at hchanged
    refine ⟨sender, token, hinput, hauthority, ?_⟩
    rw [Option.toList_some, Ballot.run_concat, Runs.attempt, ← hvoters]
    generalize Ballot.run requiredSignatures Ballot.empty votes = ballot at hchanged ⊢
    by_cases hvoted : sender ∈ ballot.voters token
    · rw [Ballot.cast_of_mem hvoted] at hchanged
      exact absurd rfl hchanged
    · rw [Ballot.cast_of_not_mem hvoted, Option.getD_some] at hchanged ⊢
      have hcard := Finset.card_insert_of_notMem hvoted
      by_cases hreached : (insert sender (ballot.voters token)).card = requiredSignatures
      · have hpassed : (Ballot.count requiredSignatures ballot sender token).passed
            = ballot.passed ++ [token] := if_pos hreached
        refine ⟨hvoted, hcard.symm.trans hreached, ?_⟩
        rw [hpassed, List.getLast?_concat, Option.getD_some]
      · have hpassed : (Ballot.count requiredSignatures ballot sender token).passed
            = ballot.passed := if_neg hreached
        rw [hpassed] at hchanged
        exact absurd rfl hchanged

variable [DecidableEq Digest]

/-- The authorities govern the token, for every deployment and every sequence of
transactions by any senders.

The tokens that have been set are the ones for which at least `requiredSignatures`
different authorities have called `setTokenAddress`, each of them is set once, and the
token of the bridge is the last of them.  A transaction changes it only if it is the
call of one more authority with which its token reaches the threshold.  If fewer
authorities than the threshold are faulty, an honest one has called for every token
that was ever set. -/
theorem token_governed (env : ForeignEnv Digest τ) (hkeccak : Function.Injective env.keccak256)
    (requiredSignatures : Nat) (authorities : List Address) (tokens : τ)
    (start : ForeignChain Digest τ)
    (hdeploy : deploy requiredSignatures authorities tokens = some start)
    (inputs : List (Input τ)) :
    let chain := start.run env inputs
    (∀ token, token ∈ chain.tokensSet ↔
        requiredSignatures ≤ (supporters authorities inputs token).card) ∧
      chain.tokensSet.Nodup ∧
      chain.bridge.erc20token = chain.tokensSet.getLast?.getD 0 ∧
      (∀ input, (start.run env (inputs ++ [input])).bridge.erc20token ≠ chain.bridge.erc20token →
        ∃ sender token, input = .call (.setTokenAddress sender token) ∧ sender ∈ authorities ∧
          sender ∉ supporters authorities inputs token ∧
          (supporters authorities inputs token).card + 1 = requiredSignatures ∧
          (start.run env (inputs ++ [input])).bridge.erc20token = token) ∧
      ∀ faulty : Finset Address, faulty.card < requiredSignatures → ∀ token ∈ chain.tokensSet,
        ∃ honest ∈ supporters authorities inputs token, honest ∉ faulty := by
  have hrecords := @records_run _ _ env _ _ _ hkeccak _ _ hdeploy inputs
  have hvalid := Ballot.valid_run (deploy_spec hdeploy).1 (votes authorities inputs)
  have hvoters := Ballot.voters_run requiredSignatures (votes authorities inputs)
  dsimp only
  refine ⟨fun token => ?_, ?_, ?_, fun input hchanged => ?_, fun faulty hfaulty token hset => ?_⟩
  · rw [hrecords.events, hvalid.passed_iff, hvoters]
    rfl
  · rw [hrecords.events]
    exact hvalid.nodup
  · rw [hrecords.events]
    exact hrecords.token
  · have hstep := records_step hkeccak hrecords input
    have hrun : start.run env (inputs ++ [input])
        = Runs.attempt (accept env) (start.run env inputs) input := List.foldl_concat ..
    rw [hrun] at hchanged ⊢
    exact vote_of_token_changed hrecords hstep hchanged
  · rw [hrecords.events] at hset
    obtain ⟨honest, hvoter, hhonest⟩ := hvalid.exists_not_mem hfaulty hset
    rw [hvoters] at hvoter
    exact ⟨honest, hvoter, hhonest⟩

/-- The token is set, replaced, and called for again by an authority that has not
called for it before. -/
def replacedToken : List (Input Nat) :=
  [.call (.setTokenAddress 0xa1 0xc1), .call (.setTokenAddress 0xa2 0xc1),
    .call (.setTokenAddress 0xa1 0xc2), .call (.setTokenAddress 0xa3 0xc2),
    .call (.setTokenAddress 0xa3 0xc1), .call (.setTokenAddress 0xa1 0xc1)]

theorem token_governed_replaced : ∃ start : ForeignChain Bytes Nat,
    deploy 2 [0xa1, 0xa2, 0xa3] 0 = some start ∧
      (start.run singleBalance replacedToken).bridge.erc20token = 0xc2 ∧
      (start.run singleBalance replacedToken).tokensSet = [0xc1, 0xc2] := by
  refine ⟨_, rfl, ?_, by decide +kernel⟩
  obtain ⟨-, -, htoken, -⟩ := token_governed singleBalance Function.injective_id 2
    [0xa1, 0xa2, 0xa3] 0 _ rfl replacedToken
  rw [htoken]
  decide +kernel

end ForeignChain

end PoaBridge.Contracts
