import Mathlib.Data.Finset.Card
import PoaBridge.Lib.Runs

/-!
# Votes that are counted one by one

Voters vote for proposals, each of them at most once for the same proposal, and a
proposal passes with the vote that reaches the threshold.  The count is never reset,
so a proposal passes at most once.

`State` carries its count, and `Valid` relates the count with the proposals that have
passed.  A vote that is refused changes nothing; `run` goes over the votes that are
cast, in order.  `voters_run` says who is counted, `valid_run` which proposals have
passed, and `Valid.exists_not_mem` is the argument that some of the voters of a
proposal that has passed can be trusted.
-/

namespace Ballot

universe u v

variable {α : Type u} {π : Type v} [DecidableEq α] [DecidableEq π]

/-- Who has voted for a proposal, and the proposals that have passed, in order. -/
structure State (α : Type u) (π : Type v) where
  voters : π → Finset α
  passed : List π

/-- Before the first vote. -/
def empty : State α π := ⟨fun _ => ∅, []⟩

/-- A vote that is counted. -/
def count (threshold : Nat) (self : State α π) (voter : α) (proposal : π) : State α π :=
  let voters := insert voter (self.voters proposal)
  { voters := Function.update self.voters proposal voters
    passed := if voters.card = threshold then self.passed ++ [proposal] else self.passed }

/-- A vote; `none` is a vote that is refused. -/
def cast (threshold : Nat) (self : State α π) (vote : α × π) : Option (State α π) :=
  if vote.1 ∈ self.voters vote.2 then none else some (count threshold self vote.1 vote.2)

def run (threshold : Nat) (self : State α π) (votes : List (α × π)) : State α π :=
  votes.foldl (Runs.attempt (cast threshold)) self

theorem run_concat (threshold : Nat) (self : State α π) (votes : List (α × π)) (vote : α × π) :
    run threshold self (votes ++ [vote])
      = Runs.attempt (cast threshold) (run threshold self votes) vote :=
  List.foldl_concat ..

section Count

variable {threshold : Nat} {self : State α π} {voter : α} {proposal : π}

theorem cast_of_mem (h : voter ∈ self.voters proposal) :
    cast threshold self (voter, proposal) = none := if_pos h

theorem cast_of_not_mem (h : voter ∉ self.voters proposal) :
    cast threshold self (voter, proposal) = some (count threshold self voter proposal) := if_neg h

@[simp] theorem voters_count_self :
    (count threshold self voter proposal).voters proposal
      = insert voter (self.voters proposal) :=
  Function.update_self ..

theorem voters_count_of_ne {other : π} (h : other ≠ proposal) :
    (count threshold self voter proposal).voters other = self.voters other :=
  Function.update_of_ne h _ _

/-- The voters after a vote that may be refused. -/
theorem voters_attempt (other : π) :
    (Runs.attempt (cast threshold) self (voter, proposal)).voters other
      = if other = proposal then insert voter (self.voters proposal) else self.voters other := by
  by_cases hmem : voter ∈ self.voters proposal
  · rw [Runs.attempt, cast_of_mem hmem, Option.getD_none, Finset.insert_eq_of_mem hmem]
    split
    · rename_i heq
      rw [heq]
    · rfl
  · rw [Runs.attempt, cast_of_not_mem hmem, Option.getD_some]
    split
    · rename_i heq
      rw [heq, voters_count_self]
    · rename_i hne
      exact voters_count_of_ne hne

end Count

/-- The voters of a proposal in a list of votes. -/
def votersOf (votes : List (α × π)) (proposal : π) : Finset α :=
  ((votes.filter (·.2 = proposal)).map Prod.fst).toFinset

theorem votersOf_concat (votes : List (α × π)) (voter : α) (proposal other : π) :
    votersOf (votes ++ [(voter, proposal)]) other
      = if other = proposal then insert voter (votersOf votes proposal)
        else votersOf votes other := by
  unfold votersOf
  rw [List.filter_append, List.map_append, List.toFinset_append]
  split
  · rename_i heq
    subst heq
    ext a
    simp
  · rename_i hne
    rw [List.filter_cons_of_neg (by simpa using Ne.symm hne)]
    simp

/-- Everybody who votes is counted, once. -/
theorem voters_run (threshold : Nat) (votes : List (α × π)) (proposal : π) :
    (run threshold empty votes).voters proposal = votersOf votes proposal := by
  induction votes using List.reverseRecOn generalizing proposal with
  | nil => rfl
  | append_singleton votes vote ih =>
    obtain ⟨voter, voted⟩ := vote
    rw [run_concat, voters_attempt, votersOf_concat, ih, ih]

/-- The proposals that have passed are the ones with enough voters, and each of them
has passed once. -/
structure Valid (threshold : Nat) (s : State α π) : Prop where
  nodup : s.passed.Nodup
  passed_iff : ∀ proposal, proposal ∈ s.passed ↔ threshold ≤ (s.voters proposal).card

omit [DecidableEq α] [DecidableEq π] in
theorem valid_empty {threshold : Nat} (hpositive : 0 < threshold) :
    Valid threshold (empty : State α π) := by
  refine ⟨List.nodup_nil, fun proposal => iff_of_false List.not_mem_nil ?_⟩
  exact Nat.not_le_of_lt hpositive

theorem valid_count {threshold : Nat} {self : State α π} (h : Valid threshold self) {voter : α}
    {proposal : π} (hnew : voter ∉ self.voters proposal) :
    Valid threshold (count threshold self voter proposal) := by
  have hcard := Finset.card_insert_of_notMem hnew
  have hvoters : ∀ other, threshold ≤ ((count threshold self voter proposal).voters other).card ↔
      threshold ≤ (self.voters other).card ∨
        other = proposal ∧ (insert voter (self.voters proposal)).card = threshold := by
    intro other
    by_cases heq : other = proposal
    · subst heq
      rw [voters_count_self]
      constructor
      · intro hle
        by_cases hbefore : threshold ≤ (self.voters other).card
        · exact .inl hbefore
        · exact .inr ⟨rfl, by omega⟩
      · rintro (hle | ⟨-, hreached⟩)
        · omega
        · exact le_of_eq hreached.symm
    · rw [voters_count_of_ne heq]
      exact ⟨.inl, fun hle => hle.elim id fun hreached => absurd hreached.1 heq⟩
  by_cases hreached : (insert voter (self.voters proposal)).card = threshold
  · have hpassed : (count threshold self voter proposal).passed = self.passed ++ [proposal] :=
      if_pos hreached
    have hbelow : proposal ∉ self.passed := by
      rw [h.passed_iff]
      omega
    refine ⟨?_, fun other => ?_⟩
    · rw [hpassed]
      exact List.nodup_append.2 ⟨h.nodup, List.nodup_singleton _, fun a ha b hb hab =>
        hbelow (List.mem_singleton.1 hb ▸ hab ▸ ha)⟩
    · rw [hpassed, List.mem_append, List.mem_singleton, h.passed_iff, hvoters]
      exact or_congr_right ⟨fun heq => ⟨heq, hreached⟩, And.left⟩
  · have hpassed : (count threshold self voter proposal).passed = self.passed := if_neg hreached
    refine ⟨by rw [hpassed]; exact h.nodup, fun other => ?_⟩
    rw [hpassed, h.passed_iff, hvoters]
    exact ⟨.inl, fun hle => hle.elim id fun habs => absurd habs.2 hreached⟩

theorem valid_run {threshold : Nat} (hpositive : 0 < threshold) (votes : List (α × π)) :
    Valid threshold (run threshold empty votes) := by
  refine Runs.foldl_of_step ?_ votes (valid_empty hpositive)
  rintro self ⟨voter, proposal⟩ h
  by_cases hmem : voter ∈ self.voters proposal
  · rw [Runs.attempt, cast_of_mem hmem]
    exact h
  · rw [Runs.attempt, cast_of_not_mem hmem]
    exact valid_count h hmem

omit [DecidableEq α] [DecidableEq π] in
/-- When fewer voters than the threshold are bad, a good one is among the voters of
every proposal that has passed. -/
theorem Valid.exists_not_mem {threshold : Nat} {self : State α π} (h : Valid threshold self)
    {bad : Finset α} (hbad : bad.card < threshold) {proposal : π}
    (hpassed : proposal ∈ self.passed) : ∃ voter ∈ self.voters proposal, voter ∉ bad :=
  Finset.exists_mem_notMem_of_card_lt_card (hbad.trans_le ((h.passed_iff proposal).1 hpassed))

end Ballot
