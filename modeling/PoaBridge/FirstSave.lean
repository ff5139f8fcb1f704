import PoaBridge.DatabaseParser
import PoaBridge.Deploy
import PoaBridge.TornSave

/-!
# The first database

The process writes the first database into a new file.  A write that fails leaves the
beginning of the text.  The fields stand in a fixed order and the last one is needed, so
the beginning can be read only if the cut is in the last number or behind it
(`Toml.ReadsCut`).  `Toml.readsCut_simple` proves this of the parser of `DatabaseParser`.
-/

namespace PoaBridge

open TextFile Toml

/-- What happens when the first database is saved.  A write that fails leaves a part of
the text. -/
inductive FirstSave where
  | saved
  | createError (kind : IoErrorKind)
  | writeError (kind : IoErrorKind) (written : Nat)

/-- The file after `database.save(fs::File::create(..)?)?`. -/
def FirstSave.file (toml : Toml) (database : Database) : FirstSave → DatabaseFile
  | .saved => .holds database
  | .createError _ => .missing
  | .writeError _ written =>
    match Database.load toml (database.display.take written) with
    | some loaded => .holds loaded
    | none => .unreadable

/-- The parts of the text of a database that can be read: only the last number can be
cut. -/
def Toml.ReadsCut (toml : Toml) : Prop :=
  ∀ (database : Database) (written : Nat) (loaded : Database),
    Database.load toml (database.display.take written) = some loaded →
    ∃ block ≤ database.checkedWithdrawConfirm,
      loaded = { database with checkedWithdrawConfirm := block }

namespace Toml

open Database

/-- The fields of a database, without the last one. -/
def firstFields (database : Database) : List (Field × Value) :=
  database.contractFields ++ [database.checkpointField .depositRelay,
    database.checkpointField .withdrawRelay]

theorem fields_eq (database : Database) :
    database.fields = firstFields database ++ [database.checkpointField .withdrawConfirm] := by
  simp [fields, firstFields, relays]

theorem isClean_of_mem_firstFields {database : Database} {field : Field × Value}
    (h : field ∈ firstFields database) : field.2.IsClean :=
  isClean_of_mem_fields field (by rw [fields_eq]; exact List.mem_append_left _ h)

theorem fst_ne_of_mem_firstFields {database : Database} {field : Field × Value}
    (h : field ∈ firstFields database) : field.1 ≠ .checked .withdrawConfirm := by
  rcases List.mem_append.1 h with h | h
  · exact fst_ne_checked_of_mem_contractFields h
  · simp only [List.mem_cons, List.not_mem_nil, or_false] at h
    rcases h with rfl | rfl <;> exact fun h => by cases h

/-- No part of another line assigns the last field. -/
theorem not_assigns_of_sublist {database : Database} {field : Field × Value} {line literal : Bytes}
    (hfield : field ∈ firstFields database) (hsub : line.Sublist (fieldLine field)) :
    ¬ Assigns line (Field.checked .withdrawConfirm).key literal := fun h =>
  fst_ne_of_mem_firstFields hfield
    (sublist_of_assigns (isClean_of_mem_firstFields hfield) hsub h).1

/-- The beginning of an assignment assigns the beginning of its literal, if it assigns
anything. -/
theorem eq_assignment_of_take {key literal part : Bytes} {n : Nat} (hkey : ∀ b ∈ key, IsWord b)
    (hblank : blank ∉ literal) (hequals : equals ∉ literal) (hpart : part ≠ [])
    (h : Assigns ((assignment key literal).take n) key part) :
    (assignment key literal).take n = assignment key part ∧ part.Sublist literal := by
  have hsub := (h.of_sublist hkey hkey hblank hequals (List.take_sublist ..)).2
  refine ⟨?_, hsub⟩
  have hleft := equals_not_mem_left hkey
  rw [assignment_eq] at h ⊢
  -- the cut is behind the equals sign
  have hlong : (key ++ [blank]).length < n := by
    by_contra hshort
    rw [List.take_append_of_le_length (Nat.le_of_not_lt hshort)] at h
    obtain ⟨-, blank₁, blank₂, blank₃, blank₄, -, -, -, -, heq⟩ := h
    refine hleft (List.mem_of_mem_take (i := n) ?_)
    rw [heq]
    simp
  obtain ⟨m, rfl⟩ := Nat.exists_eq_add_of_lt hlong
  rw [Nat.add_assoc, List.take_length_add_append, List.take_succ_cons] at h ⊢
  have hright := (h.split hkey rfl hleft
    fun hmem => equals_not_mem_right hequals (List.mem_of_mem_take hmem)).2
  rw [assignment_eq]
  congr 2
  cases m with
  | zero => exact absurd hright.symm hpart
  | succ m =>
    rw [List.singleton_append, List.take_succ_cons, ← List.singleton_append,
      withoutBlanks_right fun hmem => hblank (List.mem_of_mem_take hmem)] at hright
    rw [List.singleton_append, List.take_succ_cons, hright]
    rfl

theorem parseLines_append_nil (lines : List Bytes) :
    parseLines (lines ++ [[]]) = parseLines lines := by
  induction lines with
  | nil => rfl
  | cons line lines ih => rw [List.cons_append, parseLines, parseLines, ih]

theorem newline_not_mem_fields (database : Database) :
    ∀ line ∈ database.fields.map fieldLine, newline ∉ line := by
  intro line hline
  obtain ⟨field, hfield, rfl⟩ := List.mem_map.1 hline
  exact newline_not_mem_fieldLine (isClean_of_mem_fields field hfield)

/-- What is read from the lines of a database whose last number is cut. -/
theorem parseLines_cut (database : Database) {m : Nat}
    (hle : m ≤ database.checkedWithdrawConfirm.toNat) :
    (parseLines ((firstFields database).map fieldLine ++
      [fieldLine (.checked .withdrawConfirm, .integer m)])).bind parseDatabase =
      parse (display { database with checkedWithdrawConfirm := UInt64.ofNat m }) := by
  have hm : (UInt64.ofNat m).toNat = m := by
    rw [UInt64.toNat_ofNat', Nat.mod_eq_of_lt (Nat.lt_of_le_of_lt hle (UInt64.toNat_lt _))]
  have hfields : (fields { database with checkedWithdrawConfirm := UInt64.ofNat m }) =
      firstFields database ++ [(.checked .withdrawConfirm, .integer m)] := by
    rw [fields_eq]
    have hlast : (checkpointField { database with checkedWithdrawConfirm := UInt64.ofNat m }
        .withdrawConfirm) = (.checked .withdrawConfirm, .integer m) := by
      rw [checkpointField, checked, hm]
    rw [hlast]
    rfl
  rw [parse, display, splitOn_unlines (newline_not_mem_fields _), parseLines_append_nil, hfields,
    List.map_append]
  rfl

/-- The parser of the model reads a cut text only if the cut is in the last number. -/
theorem readsCut_simple : simple.ReadsCut := by
  intro database written loaded hload
  have hparse : parse (database.display.take written) = some loaded := hload
  rcases Nat.lt_or_ge written database.display.length with hcut | hwhole
  · obtain ⟨before, line, after, n, hlines, hn, rfl⟩ := exists_line hcut
    have hnewline := newline_not_mem_fields database
    rw [hlines] at hnewline
    have htext : (database.display.take ((unlines newline before).length + n)).splitOn newline =
        before ++ [line.take n] := by
      rw [display, hlines, take_unlines hn,
        splitOn_unlines_append fun l hl => hnewline l (by simp [hl]),
        List.splitOn_eq_singleton fun hmem => hnewline line (by simp) (List.mem_of_mem_take hmem)]
    obtain ⟨part, hpart, hassigns⟩ := exists_line_of_parse hparse .withdrawConfirm
    rw [fields_eq, List.map_append, List.map_singleton] at hlines
    rw [htext] at hpart
    -- only the last line assigns the last field
    have hlast : ∀ l ∈ (firstFields database).map fieldLine, ¬ part.Sublist l := by
      intro l hl hsub
      obtain ⟨field, hfield, rfl⟩ := List.mem_map.1 hl
      exact not_assigns_of_sublist hfield hsub hassigns
    have hinit : after = [] ∧ part = line.take n := by
      rcases List.eq_nil_or_concat after with rfl | ⟨others, last, rfl⟩
      · refine ⟨rfl, ?_⟩
        obtain ⟨hbefore, -⟩ := List.append_inj' hlines rfl
        rcases List.mem_append.1 hpart with hpart | hpart
        · exact absurd (List.Sublist.refl _) (hlast part (hbefore ▸ hpart))
        · exact List.mem_singleton.1 hpart
      · rw [List.concat_eq_append, ← List.cons_append, ← List.append_assoc] at hlines
        obtain ⟨hbefore, -⟩ := List.append_inj' hlines rfl
        rcases List.mem_append.1 hpart with hpart | hpart
        · exact absurd (List.Sublist.refl _) (hlast part (hbefore ▸ by simp [hpart]))
        · rw [List.mem_singleton.1 hpart] at hlast
          exact absurd (List.take_sublist ..) (hlast line (hbefore ▸ by simp))
    obtain ⟨rfl, rfl⟩ := hinit
    obtain ⟨hbefore, hline⟩ := List.append_inj' hlines rfl
    obtain rfl := (List.singleton_inj.1 hline)
    have hclean : Value.IsClean (.integer database.checkedWithdrawConfirm.toNat) := trivial
    obtain ⟨heq, hsub⟩ := eq_assignment_of_take (isWord_key _)
      (not_mem_display hclean blank (by simp)) (not_mem_display hclean equals (by simp))
      (display_ne_nil (.integer loaded.checkedWithdrawConfirm.toNat)) hassigns
    have hle : loaded.checkedWithdrawConfirm.toNat ≤ database.checkedWithdrawConfirm.toNat := by
      rw [← Decimal.value_digits loaded.checkedWithdrawConfirm.toNat,
        ← Decimal.value_digits database.checkedWithdrawConfirm.toNat]
      exact Decimal.value_le_of_sublist hsub
    refine ⟨loaded.checkedWithdrawConfirm, UInt64.le_iff_toNat_le.2 hle, ?_⟩
    rw [parse, htext, ← hbefore,
      show (fieldLine (database.checkpointField .withdrawConfirm)).take n =
        fieldLine (.checked .withdrawConfirm, .integer loaded.checkedWithdrawConfirm.toNat)
        from heq,
      parseLines_cut database hle, parse_display] at hparse
    split at hparse
    · rw [← Option.some.inj hparse]
    · cases hparse
  · rw [List.take_of_length_le hwhole, parse_display] at hparse
    split at hparse
    · cases hparse
      exact ⟨database.checkedWithdrawConfirm, UInt64.le_refl _, rfl⟩
    · cases hparse

end Toml

end PoaBridge
