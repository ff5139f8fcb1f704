import Mathlib.Data.List.GetD
import PoaBridge.LogStream

/-!
# What a validator has seen of a chain

A chain is the list of its blocks, and a block is the list of the logs in it.
The chain only grows: the model is about the part of it that is final.

A node is `Truthful` when it reports no block number that the chain has not
reached, and no log that is not in the blocks it was asked about.  It may
report fewer logs, and it may fail.

An `Observer` is the `LogStream` of one validator together with all the logs
that it has delivered so far, over all restarts.  `Observer.inv_poll`,
`Observer.inv_restart` and `Observer.inv_append` say that every one of them is a
`ConfirmedLog`, whatever the node answers and however often the process is
restarted.
-/

namespace PoaBridge

open LogStream

/-- The logs of every block, by block number. -/
abbrev Blocks := List (List Log)

/-- The node answers with block numbers and logs that exist. -/
structure Truthful (blocks : Blocks) (answers : Answers) : Prop where
  blockNumber : ∀ n, answers.blockNumber = .ok (.ready n) → n.toNat < blocks.length
  logs : ∀ filter fromBlock toBlock logs,
    answers.logs filter fromBlock toBlock = .ok (.ready logs) →
    ∀ log ∈ logs, filter.matches log = true ∧
      ∃ b, fromBlock.toNat ≤ b ∧ b ≤ toBlock.toNat ∧ log ∈ blocks.getD b []

/-- The log is in a block that has the confirmations, and the filter is for
it. -/
structure ConfirmedLog (blocks : Blocks) (filter : Filter) (confirmations : UInt64)
    (log : Log) : Prop where
  matched : filter.matches log = true
  confirmed : ∃ b, b + confirmations.toNat < blocks.length ∧ log ∈ blocks.getD b []

theorem mem_getD_append {blocks more : Blocks} {b : Nat} {log : Log}
    (h : log ∈ blocks.getD b []) : log ∈ (blocks ++ more).getD b [] := by
  have hlt : b < blocks.length := by
    by_contra hge
    rw [List.getD_eq_default _ _ (not_lt.1 hge)] at h
    cases h
  rwa [List.getD_append _ _ _ _ hlt]

/-- What a node said about a chain stays true when the chain grows. -/
theorem Truthful.append {blocks : Blocks} {answers : Answers} (h : Truthful blocks answers)
    (more : Blocks) : Truthful (blocks ++ more) answers := by
  refine ⟨?_, ?_⟩
  · intro n hn
    have := h.blockNumber n hn
    rw [List.length_append]
    omega
  · intro filter fromBlock toBlock logs hlogs log hlog
    obtain ⟨hmatch, b, hge, hle, hmem⟩ := h.logs filter fromBlock toBlock logs hlogs log hlog
    exact ⟨hmatch, b, hge, hle, mem_getD_append hmem⟩

theorem ConfirmedLog.append {blocks : Blocks} {filter : Filter} {confirmations : UInt64}
    {log : Log} (h : ConfirmedLog blocks filter confirmations log) (more : Blocks) :
    ConfirmedLog (blocks ++ more) filter confirmations log := by
  obtain ⟨hmatch, b, hconf, hmem⟩ := h
  refine ⟨hmatch, b, ?_, mem_getD_append hmem⟩
  rw [List.length_append]
  omega

/-- Every log of a delivered item is a confirmed one. -/
theorem Delivered.confirmedLog {blocks : Blocks} {filter : Filter} {confirmations : UInt64}
    {item : LogStreamItem} (h : Delivered (Truthful blocks) filter confirmations item)
    {log : Log} (hlog : log ∈ item.logs) : ConfirmedLog blocks filter confirmations log := by
  obtain ⟨answers, n, htrue, hn, hle⟩ := h.confirmed
  obtain ⟨answers', htrue', hlogs⟩ := h.answered
  obtain ⟨hmatch, b, -, hb, hmem⟩ := htrue'.logs _ _ _ _ hlogs log hlog
  have hlt := htrue.blockNumber n hn
  exact ⟨hmatch, b, by omega, hmem⟩

/-! ## Observers -/

/-- The stream of a validator, and the logs it has delivered. -/
structure Observer where
  stream : LogStream
  delivered : List Log

namespace Observer

/-- The process is polled once. -/
def poll (self : Observer) (script : List Answers) : Observer where
  stream := (self.stream.poll script).1
  delivered := self.delivered ++ (emitted (self.stream.poll script).2).flatMap (·.logs)

/-- The process is started again, from a saved checkpoint.  What it sent before
is not forgotten by anybody. -/
def restart (self : Observer) (after : UInt64) : Observer :=
  { self with stream := logStream ⟨after, self.stream.filter, self.stream.confirmations⟩ }

/-- The invariant of an observer of a chain. -/
structure Inv (blocks : Blocks) (filter : Filter) (confirmations : UInt64)
    (observer : Observer) : Prop where
  stream : observer.stream.Inv (Truthful blocks)
  filter_eq : observer.stream.filter = filter
  confirmations_eq : observer.stream.confirmations = confirmations
  delivered : ∀ log ∈ observer.delivered, ConfirmedLog blocks filter confirmations log

/-- A validator that has not been polled yet. -/
def start (filter : Filter) (confirmations after : UInt64) : Observer :=
  ⟨logStream ⟨after, filter, confirmations⟩, []⟩

theorem inv_start (blocks : Blocks) (filter : Filter) (confirmations after : UInt64) :
    (start filter confirmations after).Inv blocks filter confirmations :=
  ⟨inv_logStream _ _, rfl, rfl, by simp [start]⟩

variable {blocks : Blocks} {filter : Filter} {confirmations : UInt64} {self : Observer}

theorem inv_poll {script : List Answers} (h : self.Inv blocks filter confirmations)
    (hscript : ∀ answers ∈ script, Truthful blocks answers) :
    (self.poll script).Inv blocks filter confirmations := by
  obtain ⟨hinv, hfilter, hconf, hresult⟩ := poll_spec hscript h.stream
  refine ⟨hinv, hfilter.trans h.filter_eq, hconf.trans h.confirmations_eq, ?_⟩
  intro log hlog
  rcases List.mem_append.1 hlog with hlog | hlog
  · exact h.delivered log hlog
  · obtain ⟨item, hitem, hlog⟩ := List.mem_flatMap.1 hlog
    unfold emitted at hitem
    split at hitem
    · rename_i item' hpoll
      rw [hpoll] at hresult
      rw [List.mem_singleton.1 hitem] at hlog
      have hdelivered := hresult.1
      rw [h.filter_eq, h.confirmations_eq] at hdelivered
      exact Delivered.confirmedLog hdelivered hlog
    · cases hitem

theorem inv_restart (h : self.Inv blocks filter confirmations) (after : UInt64) :
    (self.restart after).Inv blocks filter confirmations :=
  ⟨inv_logStream _ _, h.filter_eq, h.confirmations_eq, h.delivered⟩

theorem inv_append (h : self.Inv blocks filter confirmations) (more : Blocks) :
    self.Inv (blocks ++ more) filter confirmations :=
  ⟨h.stream.mono fun _ ht => ht.append more, h.filter_eq, h.confirmations_eq,
    fun log hlog => (h.delivered log hlog).append more⟩

/-- The observers of several validators, when one of them changes. -/
theorem inv_update {observers : Address → Observer} {validator : Address} {observer : Observer}
    (h : ∀ v, (observers v).Inv blocks filter confirmations)
    (hobserver : observer.Inv blocks filter confirmations) (v : Address) :
    (Function.update observers validator observer v).Inv blocks filter confirmations := by
  by_cases heq : v = validator
  · subst heq
    rw [Function.update_self]
    exact hobserver
  · rw [Function.update_of_ne heq]
    exact h v

end Observer

end PoaBridge
