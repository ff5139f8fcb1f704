import PoaBridge.Bridge
import PoaBridge.DatabaseParser

/-!
# The file of the database

`Bridge::poll` of `bridge/src/bridge/mod.rs` with the bytes of the file.  After
an event it opens the file without truncating it and writes the text of the
database over its beginning.  `Bridge.poll_file` connects this with the bridge,
where the file is the database that it holds.

A file that was longer than the new text keeps its end.  `file_exact_iff` says
that this is all that can go wrong, apart from a block number that TOML does
not have: over every run, the file holds exactly the database after every poll
if and only if the file was never longer than the text that was written.
-/

namespace PoaBridge

open PollLoop TextFile

/-! ## The bridge and its file -/

/-- What happens when the file is opened and written.  A write that fails has
written some of the bytes. -/
inductive FileWrite where
  | done
  | openError (kind : IoErrorKind)
  | writeError (kind : IoErrorKind) (written : Nat)
deriving DecidableEq, Repr

/-- The database of a bridge, and the content of the file at its path. -/
structure BridgeFile where
  database : Database
  file : Bytes
deriving DecidableEq, Repr

namespace BridgeFile

/-- `Bridge::poll`, with the answer of the event stream. -/
def poll (self : BridgeFile) (item : Poll (Option BridgeChecked)) (write : FileWrite) :
    BridgeFile × Poll (Option Unit) :=
  match item with
  | .error e => (self, .error e)
  | .ok .notReady => (self, .ok .notReady)
  | .ok (.ready none) => (self, .ok (.ready none))
  | .ok (.ready (some check)) =>
    let database := self.database.update check
    match write with
    | .done => (⟨database, overwrite self.file database.display⟩, .ok (.ready (some ())))
    | .openError kind => (⟨database, self.file⟩, .error (.io kind))
    | .writeError kind written =>
      (⟨database, overwrite self.file (database.display.take written)⟩, .error (.io kind))

/-- A poll that succeeds. -/
def saved (self : BridgeFile) (check : BridgeChecked) : BridgeFile :=
  (self.poll (.ok (.ready (some check))) .done).1

/-- The polls that succeed are those that get an event and write the file. -/
theorem poll_eq_ready_iff {self self' : BridgeFile} {item : Poll (Option BridgeChecked)}
    {write : FileWrite} :
    self.poll item write = (self', .ok (.ready (some ()))) ↔
      ∃ check, item = .ok (.ready (some check)) ∧ write = .done ∧ self' = self.saved check := by
  constructor
  · intro h
    rcases item with e | _ | _ | check
    · cases h
    · cases h
    · cases h
    · cases write with
      | done =>
        cases h
        exact ⟨check, rfl, rfl, rfl⟩
      | openError kind => cases h
      | writeError kind written => cases h
  · rintro ⟨check, rfl, rfl, rfl⟩
    rfl

end BridgeFile

/-- The bridge and its file do the same.  The file holds the text of the new
database if it held the text of the old one, and that one was not longer. -/
theorem Bridge.poll_file {Digest : Type} (app : App Digest) (bridge : Bridge Digest)
    (shared : Shared Digest) (file : Database)
    (script : List (BridgeEventStream.Answers Digest)) :
    let outcome := bridge.poll app shared file script .saved
    let item := (BridgeEventStream.poll app (bridge.eventStream, shared) script).2
    let polled := BridgeFile.poll ⟨bridge.database, file.display⟩ item .done
    polled.2 = outcome.result ∧ polled.1.database = outcome.bridge.database ∧
      (file.display.length ≤ polled.1.database.display.length →
        polled.1.file = outcome.file.display) := by
  dsimp only
  unfold Bridge.poll
  generalize BridgeEventStream.poll app (bridge.eventStream, shared) script = polled
  rcases polled with ⟨⟨stream, shared'⟩, e | _ | _ | check⟩
  · exact ⟨rfl, rfl, fun _ => rfl⟩
  · exact ⟨rfl, rfl, fun _ => rfl⟩
  · exact ⟨rfl, rfl, fun _ => rfl⟩
  · exact ⟨rfl, rfl, fun h => overwrite_eq_iff.2 h⟩

/-! ## The file holds exactly the database -/

namespace BridgeFile

/-- The file is the text of the database, and gives it back. -/
def Exact (toml : Toml) (self : BridgeFile) : Prop :=
  self.file = self.database.display ∧ Database.load toml self.file = some self.database

/-- The file is not longer than the text of the database, when the digits that
the event adds to it are counted, and TOML has the new block number. -/
def Fits (self : BridgeFile) (check : BridgeChecked) : Prop :=
  self.file.length + (Decimal.digits (self.database.checked check.relay).toNat).length
      ≤ self.database.display.length + (Decimal.digits check.block.toNat).length ∧
    check.block.toNat < 2 ^ 63

instance (self : BridgeFile) (check : BridgeChecked) : Decidable (self.Fits check) :=
  inferInstanceAs (Decidable (_ ∧ _))

/-- Then the text that is written covers the file. -/
theorem fits_iff {self : BridgeFile} {check : BridgeChecked} :
    self.Fits check ↔
      self.file.length ≤ (self.database.update check).display.length ∧
        check.block.toNat < 2 ^ 63 := by
  have hlength := self.database.length_display_update check
  rw [Fits]
  refine and_congr_left fun _ => ?_
  omega

theorem representable_update_iff {database : Database} (h : database.Representable)
    (check : BridgeChecked) :
    (database.update check).Representable ↔ check.block.toNat < 2 ^ 63 := by
  have hmem : ∀ n, n ∈ (database.update check).blockNumbers →
      n = check.block ∨ n ∈ database.blockNumbers := by
    intro n hn
    cases check <;>
      simp only [Database.blockNumbers, Database.update, Database.relays, Database.checked,
        List.map_cons, List.map_nil, List.mem_append, List.mem_cons, List.not_mem_nil, or_false,
        BridgeChecked.block] at hn ⊢ <;>
      tauto
  constructor
  · intro hupdate
    refine hupdate _ (List.mem_append_right _ (List.mem_map.2 ⟨check.relay, ?_, ?_⟩))
    · cases check <;> simp [Database.relays, BridgeChecked.relay]
    · exact Database.checked_update_self database check
  · intro hblock n hn
    rcases hmem n hn with rfl | hn
    · exact hblock
    · exact h n hn

/-- One poll. -/
theorem exact_saved_iff (toml : Toml) {self : BridgeFile} (h : self.database.Representable)
    (check : BridgeChecked) : Exact toml (self.saved check) ↔ self.Fits check := by
  have hload : Database.load toml (self.database.update check).display
      = some (self.database.update check) ↔ check.block.toNat < 2 ^ 63 := by
    rw [← representable_update_iff h, Database.load, toml.fromStr_display]
    simp
  have hfile : (self.saved check).file = overwrite self.file (self.database.update check).display :=
    rfl
  have hdatabase : (self.saved check).database = self.database.update check := rfl
  rw [Exact, fits_iff, hfile, hdatabase]
  constructor
  · rintro ⟨hexact, hloaded⟩
    rw [hexact] at hloaded
    exact ⟨overwrite_eq_iff.1 hexact, hload.1 hloaded⟩
  · rintro ⟨hlength, hblock⟩
    rw [overwrite_eq_iff.2 hlength]
    exact ⟨rfl, hload.2 hblock⟩

/-- For every file that `Database::load` accepts and every sequence of events:
the file holds exactly the database after every poll, if and only if it was
never longer than the text of the database with the new number, and TOML has
the block numbers. -/
theorem file_exact_iff (toml : Toml) {file : Bytes} {database : Database}
    (hload : Database.load toml file = some database) (checks : List BridgeChecked) :
    Runs.Along saved (fun self check => Exact toml (self.saved check)) ⟨database, file⟩ checks ↔
      Runs.Along saved Fits ⟨database, file⟩ checks := by
  have hinit : (BridgeFile.mk database file).database.Representable :=
    toml.fromStr_representable _ _ hload
  have hkeep : ∀ (self : BridgeFile) (check : BridgeChecked), self.database.Representable →
      self.Fits check → (self.saved check).database.Representable :=
    fun self check h hfits => (representable_update_iff h check).2 hfits.2
  constructor
  · exact fun h => Runs.Along.of_invariant
      (fun self check hself hexact =>
        hkeep self check hself ((exact_saved_iff toml hself check).1 hexact))
      (fun self check hself => (exact_saved_iff toml hself check).1) h hinit
  · exact fun h => Runs.Along.of_invariant hkeep
      (fun self check hself => (exact_saved_iff toml hself check).2) h hinit

/-! ### A file with a comment -/

/-- The database in the unit test of `bridge/src/database.rs`. -/
def testDatabase : Database where
  homeContractAddress := 0x49edf201c1e139282643d5e7c6fb0c7219ad1db7
  foreignContractAddress := 0x49edf201c1e139282643d5e7c6fb0c7219ad1db8
  homeDeploy := some 100
  foreignDeploy := some 101
  checkedDepositRelay := 120
  checkedWithdrawRelay := 121
  checkedWithdrawConfirm := 121

/-- From the text that the bridge itself writes, the file stays exact as long as
the numbers do not get shorter. -/
theorem file_exact_testDatabase :
    Runs.Along saved (fun self check => Exact Toml.simple (self.saved check))
      ⟨testDatabase, testDatabase.display⟩
      [.depositRelay 130, .withdrawConfirm 1000, .withdrawRelay 122] :=
  (file_exact_iff Toml.simple (by decide +kernel) _).2 (by decide +kernel)

/-- The same database in a file with a comment. -/
def commentedFile : Bytes := asciiBytes "# db\n" ++ testDatabase.display

/-- The end of the longer file stays, and the database cannot be loaded any
more. -/
theorem comment_corrupts_file :
    Database.load Toml.simple commentedFile = some testDatabase ∧
      ¬ Exact Toml.simple (saved ⟨testDatabase, commentedFile⟩ (.depositRelay 130)) ∧
      Database.load Toml.simple
        (saved ⟨testDatabase, commentedFile⟩ (.depositRelay 130)).file = none := by
  refine ⟨by decide +kernel, fun h => ?_, by decide +kernel⟩
  exact absurd h.1 (by decide +kernel)

end BridgeFile

end PoaBridge
