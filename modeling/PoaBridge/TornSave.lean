import PoaBridge.DatabaseFile

/-!
# A save that is interrupted

The file holds the text of a database, and the text of the next one is written
over it, with one checkpoint raised.  When the save stops after some bytes, the
file is a mixture of the two texts.

If the checkpoint gets more digits, no mixture is dangerous.  Up to the end of
the old digits, the mixture has a number with fewer digits than the new one.
Behind them, it is the new text with a gap of some bytes, and what can be read
from such a text are parts of the new numbers: `notAhead_of_sublists` and
`load_eq_none_of_merged`.

If the two numbers have the same length, the mixture is the text of a database
with a mixed number.  `torn_save_iff` is the exact condition under which that
number is not ahead of the blocks that the relay has yielded.
-/

namespace PoaBridge

open TextFile Toml

/-! ## Assignments -/

namespace Toml

/-- The bytes that are not blank. -/
def withoutBlanks (bytes : Bytes) : Bytes := bytes.filter (· != blank)

theorem withoutBlanks_of_isBlank {bytes : Bytes} (h : IsBlank bytes) :
    withoutBlanks bytes = [] := by
  refine List.filter_eq_nil_iff.2 fun b hb => ?_
  simp [h b hb]

theorem withoutBlanks_eq_self {bytes : Bytes} (h : blank ∉ bytes) :
    withoutBlanks bytes = bytes := by
  refine List.filter_eq_self.2 fun b hb => ?_
  simp only [bne_iff_ne, ne_eq]
  rintro rfl
  exact h hb

theorem withoutBlanks_append (xs ys : Bytes) :
    withoutBlanks (xs ++ ys) = withoutBlanks xs ++ withoutBlanks ys := List.filter_append ..

theorem withoutBlanks_sublist {xs ys : Bytes} (h : xs.Sublist ys) :
    (withoutBlanks xs).Sublist (withoutBlanks ys) := h.filter _

theorem blank_not_mem_of_isWord {bytes : Bytes} (h : ∀ b ∈ bytes, IsWord b) : blank ∉ bytes :=
  fun hmem => ne_of_isWord (h blank hmem) (by simp) rfl

theorem equals_not_mem_of_isWord {bytes : Bytes} (h : ∀ b ∈ bytes, IsWord b) : equals ∉ bytes :=
  fun hmem => ne_of_isWord (h equals hmem) (by simp) rfl

theorem equals_not_mem_of_isBlank {bytes : Bytes} (h : IsBlank bytes) : equals ∉ bytes := by
  intro hmem
  exact absurd (h equals hmem) (by decide)

/-- What a line with one equals sign assigns. -/
theorem Assigns.split {line key literal left right : Bytes} (h : Assigns line key literal)
    (hkey : ∀ b ∈ key, IsWord b) (hline : line = left ++ equals :: right) (hleft : equals ∉ left)
    (hright : equals ∉ right) : withoutBlanks left = key ∧ withoutBlanks right = literal := by
  obtain ⟨hliteral, blank₁, blank₂, blank₃, blank₄, h₁, h₂, h₃, h₄, heq⟩ := h
  rw [hline] at heq
  obtain ⟨rfl, -, rfl⟩ := (List.append_cons_inj_of_notMem hleft hright).1 heq
  constructor
  · rw [withoutBlanks_append, withoutBlanks_append, withoutBlanks_of_isBlank h₁,
      withoutBlanks_of_isBlank h₂, withoutBlanks_eq_self (blank_not_mem_of_isWord hkey),
      List.nil_append, List.append_nil]
  · rw [withoutBlanks_append, withoutBlanks_append, withoutBlanks_of_isBlank h₃,
      withoutBlanks_of_isBlank h₄, withoutBlanks_eq_self (blank_not_mem_of_isWord hliteral),
      List.nil_append, List.append_nil]

/-- A line assigns one key. -/
theorem Assigns.key_unique {line key key' literal literal' : Bytes}
    (h : Assigns line key literal) (h' : Assigns line key' literal')
    (hkey : ∀ b ∈ key, IsWord b) (hkey' : ∀ b ∈ key', IsWord b) : key' = key := by
  obtain ⟨hliteral, blank₁, blank₂, blank₃, blank₄, h₁, h₂, h₃, h₄, heq⟩ := id h
  have hleft : equals ∉ blank₁ ++ key ++ blank₂ := by
    simp only [List.mem_append, not_or]
    exact ⟨⟨equals_not_mem_of_isBlank h₁, equals_not_mem_of_isWord hkey⟩,
      equals_not_mem_of_isBlank h₂⟩
  have hright : equals ∉ blank₃ ++ literal ++ blank₄ := by
    simp only [List.mem_append, not_or]
    exact ⟨⟨equals_not_mem_of_isBlank h₃, equals_not_mem_of_isWord hliteral⟩,
      equals_not_mem_of_isBlank h₄⟩
  rw [← (h'.split hkey' heq hleft hright).1, (h.split hkey heq hleft hright).1]

section Assignment

variable {key literal key' literal' : Bytes}

theorem equals_not_mem_left (h : ∀ b ∈ key, IsWord b) : equals ∉ key ++ [blank] := by
  simp only [List.mem_append, List.mem_singleton, not_or]
  exact ⟨equals_not_mem_of_isWord h, by decide⟩

theorem equals_not_mem_right (h : equals ∉ literal) : equals ∉ [blank] ++ literal := by
  simp only [List.mem_append, List.mem_singleton, not_or]
  exact ⟨by decide, h⟩

theorem withoutBlanks_left (h : ∀ b ∈ key, IsWord b) : withoutBlanks (key ++ [blank]) = key := by
  rw [withoutBlanks_append, withoutBlanks_eq_self (blank_not_mem_of_isWord h),
    show withoutBlanks [blank] = [] from rfl, List.append_nil]

theorem withoutBlanks_right (h : blank ∉ literal) :
    withoutBlanks ([blank] ++ literal) = literal := by
  rw [withoutBlanks_append, withoutBlanks_eq_self h, show withoutBlanks [blank] = [] from rfl,
    List.nil_append]

/-- An assignment assigns its literal to its key. -/
theorem Assigns.eq_of_assignment (h : Assigns (assignment key' literal') key literal)
    (hkey : ∀ b ∈ key, IsWord b) (hkey' : ∀ b ∈ key', IsWord b) (hblank : blank ∉ literal')
    (hequals : equals ∉ literal') : key' = key ∧ literal' = literal := by
  obtain ⟨hleft, hright⟩ := h.split hkey (assignment_eq key' literal')
    (equals_not_mem_left hkey') (equals_not_mem_right hequals)
  rw [withoutBlanks_left hkey'] at hleft
  rw [withoutBlanks_right hblank] at hright
  exact ⟨hleft, hright⟩

/-- A part of an assignment assigns a part of the literal to a part of the
key. -/
theorem Assigns.of_sublist {line : Bytes} (h : Assigns line key literal)
    (hkey : ∀ b ∈ key, IsWord b) (hkey' : ∀ b ∈ key', IsWord b) (hblank : blank ∉ literal')
    (hequals : equals ∉ literal') (hsub : line.Sublist (assignment key' literal')) :
    key.Sublist key' ∧ literal.Sublist literal' := by
  have hleft := equals_not_mem_left hkey'
  have hright := equals_not_mem_right hequals
  rw [assignment_eq] at hsub
  obtain ⟨left, rest, rfl, hsubLeft, hsubRest⟩ := List.sublist_append_iff.1 hsub
  have hmem : equals ∈ left ++ rest := by
    obtain ⟨-, blank₁, blank₂, blank₃, blank₄, -, -, -, -, heq⟩ := h
    rw [heq]
    simp
  have hmemRest : equals ∈ rest :=
    (List.mem_append.1 hmem).resolve_left fun hmem => hleft (hsubLeft.subset hmem)
  -- the equals sign of the line is the one of the assignment
  rcases List.sublist_cons_iff.1 hsubRest with hsubRest | ⟨right, rfl, hsubRight⟩
  · exact absurd (hsubRest.subset hmemRest) hright
  · obtain ⟨rfl, rfl⟩ := h.split hkey rfl (fun hmem => hleft (hsubLeft.subset hmem))
      (fun hmem => hright (hsubRight.subset hmem))
    have hkeyPart := withoutBlanks_sublist hsubLeft
    have hliteralPart := withoutBlanks_sublist hsubRight
    rw [withoutBlanks_left hkey'] at hkeyPart
    rw [withoutBlanks_right hblank] at hliteralPart
    exact ⟨hkeyPart, hliteralPart⟩

end Assignment

end Toml

/-! ## What can be read from parts of the lines -/

open Database

/-- What is loaded from the file, if anything, is not ahead of a database. -/
def NotAhead (toml : Toml) (file : Bytes) (limit : Database) : Prop :=
  ∀ loaded, Database.load toml file = some loaded →
    ∀ relay, loaded.checked relay ≤ limit.checked relay

theorem key_sublist {relay : Relay} {field : Field}
    (h : (Field.checked relay).key.Sublist field.key) : field = .checked relay := by
  cases relay <;> rcases field with _ | _ | _ | _ | _ | _ | _ <;>
    first | rfl | exact absurd h (by decide)

/-- A part of the line of a field assigns a part of its value. -/
theorem sublist_of_assigns {line literal : Bytes} {relay : Relay} {field : Field × Value}
    (hclean : field.2.IsClean) (hsub : line.Sublist (fieldLine field))
    (h : Assigns line (Field.checked relay).key literal) :
    field.1 = .checked relay ∧ literal.Sublist field.2.display := by
  obtain ⟨hkey, hliteral⟩ := h.of_sublist (isWord_key _) (isWord_key field.1)
    (not_mem_display hclean blank (by simp)) (not_mem_display hclean equals (by simp)) hsub
  exact ⟨key_sublist hkey, hliteral⟩

/-- The line of a field assigns its value. -/
theorem eq_of_assigns {literal : Bytes} {relay : Relay} {field : Field × Value}
    (hclean : field.2.IsClean) (h : Assigns (fieldLine field) (Field.checked relay).key literal) :
    field.1 = .checked relay ∧ field.2.display = literal := by
  obtain ⟨hkey, hliteral⟩ := h.eq_of_assignment (isWord_key _) (isWord_key field.1)
    (not_mem_display hclean blank (by simp)) (not_mem_display hclean equals (by simp))
  exact ⟨key_inj.1 hkey, hliteral⟩

theorem fst_ne_checked_of_mem_contractFields {database : Database} {relay : Relay}
    {field : Field × Value} (h : field ∈ database.contractFields) : field.1 ≠ .checked relay := by
  simp only [contractFields, List.mem_append, List.mem_cons, Option.mem_toList,
    Option.map_eq_some_iff, List.not_mem_nil, or_false] at h
  rcases h with ((rfl | rfl) | ⟨n, -, rfl⟩) | ⟨n, -, rfl⟩ <;> exact fun h => by cases h

/-- The lines before the checkpoints do not assign one. -/
theorem not_assigns_of_mem_contractLines {database : Database} {line literal : Bytes}
    {relay : Relay} (h : line ∈ database.contractLines) :
    ¬ Assigns line (Field.checked relay).key literal := by
  obtain ⟨field, hfield, rfl⟩ := List.mem_map.1 h
  intro hassigns
  have hclean := isClean_of_mem_fields field (List.mem_append_left _ hfield)
  exact fst_ne_checked_of_mem_contractFields hfield (eq_of_assigns hclean hassigns).1

theorem not_assigns_nil {key literal : Bytes} : ¬ Assigns [] key literal := by
  rintro ⟨-, _, _, _, _, -, -, -, -, heq⟩
  simp at heq

theorem isBare_nil : IsBare [] := fun b hb => by cases hb

theorem isBare_fieldLine (field : Field) (n : Nat) : IsBare (fieldLine (field, .integer n)) := by
  intro b hb
  rw [fieldLine, assignment, List.mem_append, List.mem_cons, List.mem_cons, List.mem_cons] at hb
  rcases hb with hb | hb | hb | hb | hb
  · exact .inl (isWord_key field b hb)
  · exact .inr (.inl hb)
  · exact .inr (.inr hb)
  · exact .inr (.inl hb)
  · exact .inl (isWord_of_isDigit (Decimal.isDigit_of_mem_digits b hb))

theorem isPlain_of_mem_contractLines {database : Database} {line : Bytes}
    (h : line ∈ database.contractLines) : IsAddressLine line ∨ IsBare line := by
  obtain ⟨field, hfield, rfl⟩ := List.mem_map.1 h
  simp only [contractFields, List.mem_append, List.mem_cons, Option.mem_toList,
    Option.map_eq_some_iff, List.not_mem_nil, or_false] at hfield
  rcases hfield with ((rfl | rfl) | ⟨n, -, rfl⟩) | ⟨n, -, rfl⟩
  · exact .inl ⟨_, _, isWord_key _, rfl⟩
  · exact .inl ⟨_, _, isWord_key _, rfl⟩
  · exact .inr (isBare_fieldLine _ _)
  · exact .inr (isBare_fieldLine _ _)

theorem isPlain_of_lines {database : Database} {text : Bytes}
    (h : ∀ line ∈ text.splitOn newline, line ∈ database.contractLines ∨ IsBare line) :
    IsPlain text := by
  intro line hline
  rcases h line hline with hcontract | hbare
  · exact isPlain_of_mem_contractLines hcontract
  · exact .inr hbare

/-- From parts of the checkpoint lines only smaller numbers can be read. -/
theorem notAhead_of_sublists (toml : Toml) {limit : Database} {text : Bytes}
    (h : ∀ line ∈ text.splitOn newline, line ∈ limit.contractLines ∨
      ∃ relay, line.Sublist (limit.checkpointLine relay)) : NotAhead toml text limit := by
  have hplain : IsPlain text := by
    refine isPlain_of_lines fun line hline => (h line hline).imp_right ?_
    rintro ⟨relay, hsub⟩ b hb
    exact isBare_fieldLine _ _ b (hsub.subset hb)
  intro loaded hload relay
  obtain ⟨line, hline, literal, hassigns, hvalue⟩ :=
    toml.fromStr_plain text loaded hplain hload relay
  rcases h line hline with hcontract | ⟨relay', hsub⟩
  · exact absurd hassigns (not_assigns_of_mem_contractLines hcontract)
  · obtain ⟨hrelay, hliteral⟩ :=
      @sublist_of_assigns line literal relay (limit.checkpointField relay') trivial hsub hassigns
    cases hrelay
    have hdigits : ∀ b ∈ literal, Decimal.IsDigit b := fun b hb =>
      Decimal.isDigit_of_mem_digits b (hliteral.subset hb)
    rw [UInt64.le_iff_toNat_le, ← hvalue hdigits,
      ← Decimal.value_digits (limit.checked relay).toNat]
    exact Decimal.value_le_of_sublist hliteral

/-- Nothing can be read when two checkpoints have one line left. -/
theorem load_eq_none_of_merged (toml : Toml) {limit : Database} {text merged : Bytes}
    {relay₁ relay₂ : Relay} (hne : relay₁ ≠ relay₂) (hmerged : IsBare merged)
    (h : ∀ line ∈ text.splitOn newline, line ∈ limit.contractLines ∨ line = [] ∨ line = merged ∨
      ∃ relay, relay ≠ relay₁ ∧ relay ≠ relay₂ ∧ line = limit.checkpointLine relay) :
    Database.load toml text = none := by
  have hplain : IsPlain text := by
    refine isPlain_of_lines fun line hline => (h line hline).imp_right ?_
    rintro (rfl | rfl | ⟨relay, -, -, rfl⟩)
    · exact isBare_nil
    · exact hmerged
    · exact isBare_fieldLine _ _
  refine Option.eq_none_iff_forall_ne_some.2 fun loaded hload => ?_
  -- a relay that has no line of its own is assigned by the merged one
  have hassigned : ∀ relay, relay = relay₁ ∨ relay = relay₂ →
      ∃ literal, Assigns merged (Field.checked relay).key literal := by
    intro relay hrelay
    obtain ⟨line, hline, literal, hassigns, -⟩ :=
      toml.fromStr_plain text loaded hplain hload relay
    rcases h line hline with hcontract | rfl | rfl | ⟨relay', hne₁, hne₂, rfl⟩
    · exact absurd hassigns (not_assigns_of_mem_contractLines hcontract)
    · exact absurd hassigns not_assigns_nil
    · exact ⟨literal, hassigns⟩
    · obtain ⟨heq, -⟩ :=
        @eq_of_assigns literal relay (limit.checkpointField relay') trivial hassigns
      cases heq
      rcases hrelay with rfl | rfl
      · exact absurd rfl hne₁
      · exact absurd rfl hne₂
  obtain ⟨literal₁, h₁⟩ := hassigned relay₁ (.inl rfl)
  obtain ⟨literal₂, h₂⟩ := hassigned relay₂ (.inr rfl)
  have hkey := h₁.key_unique h₂ (isWord_key _) (isWord_key _)
  cases key_inj.1 hkey
  exact hne rfl

/-! ## A gap in the text -/

/-- The gap goes over the end of a line: two relays have lost their lines, and
others have kept theirs. -/
theorem load_eq_none_of_across (toml : Toml) (limit : Database) {text : Bytes}
    {kept lost kept' : List Relay} {relay₁ relay₂ : Relay} {n m : Nat}
    (hnodup : (kept ++ relay₁ :: (lost ++ relay₂ :: kept')).Nodup)
    (htext : text.splitOn newline = limit.contractLines ++ (kept.map limit.checkpointLine
      ++ ((limit.checkpointLine relay₁).take n ++ (limit.checkpointLine relay₂).drop m)
        :: kept'.map limit.checkpointLine ++ [[]])) :
    Database.load toml text = none := by
  have hkept : ∀ relay ∈ kept ++ kept', relay ≠ relay₁ ∧ relay ≠ relay₂ := by grind
  have hne : relay₁ ≠ relay₂ := by grind
  have hmerged : IsBare ((limit.checkpointLine relay₁).take n
      ++ (limit.checkpointLine relay₂).drop m) := by
    intro b hb
    rcases List.mem_append.1 hb with hb | hb
    · exact isBare_fieldLine _ _ b (List.mem_of_mem_take hb)
    · exact isBare_fieldLine _ _ b (List.mem_of_mem_drop hb)
  refine @load_eq_none_of_merged toml limit _ _ _ _ hne hmerged fun line hline => ?_
  rw [htext] at hline
  simp only [List.mem_append, List.mem_cons, List.mem_map, List.not_mem_nil, or_false] at hline
  have hwhole : ∀ relay ∈ kept ++ kept', ∃ relay', relay' ≠ relay₁ ∧ relay' ≠ relay₂ ∧
      limit.checkpointLine relay = limit.checkpointLine relay' :=
    fun relay hmem => ⟨relay, (hkept relay hmem).1, (hkept relay hmem).2, rfl⟩
  rcases hline with hline | (⟨relay, hmem, rfl⟩ | rfl | ⟨relay, hmem, rfl⟩) | rfl
  · exact .inl hline
  · exact .inr (.inr (.inr (hwhole relay (List.mem_append_left _ hmem))))
  · exact .inr (.inr (.inl rfl))
  · exact .inr (.inr (.inr (hwhole relay (List.mem_append_right _ hmem))))
  · exact .inr (.inl rfl)

theorem newline_not_mem_lines (database : Database) (relays : List Relay) :
    ∀ line ∈ database.contractLines ++ relays.map database.checkpointLine, newline ∉ line := by
  intro line hline
  rcases List.mem_append.1 hline with hline | hline
  · obtain ⟨field, hfield, rfl⟩ := List.mem_map.1 hline
    exact newline_not_mem_fieldLine (isClean_of_mem_fields field (List.mem_append_left _ hfield))
  · obtain ⟨relay, -, rfl⟩ := List.mem_map.1 hline
    exact @newline_not_mem_fieldLine (database.checkpointField relay) trivial

/-- The lines from a checkpoint on, with a gap in them. -/
theorem notAhead_of_gap (toml : Toml) (limit : Database) (relay : Relay) {text : Bytes}
    (h : Gap ((relay :: after relay).map limit.checkpointLine) (text.splitOn newline)) :
    NotAhead toml (unlines newline (limit.contractLines ++ (before relay).map limit.checkpointLine)
      ++ text) limit := by
  have hsplit := splitOn_unlines_append (newline_not_mem_lines limit (before relay)) text
  rcases h.parts_or_across with hparts | ⟨lines, between, lines', line, line', n, m, hlines, hparts⟩
  · refine notAhead_of_sublists toml fun part hpart => ?_
    rw [hsplit] at hpart
    rcases List.mem_append.1 hpart with hpart | hpart
    · rcases List.mem_append.1 hpart with hpart | hpart
      · exact .inl hpart
      · obtain ⟨relay', -, rfl⟩ := List.mem_map.1 hpart
        exact .inr ⟨relay', List.Sublist.refl _⟩
    · rcases hparts part hpart with rfl | ⟨line, hline, hsub⟩
      · exact .inr ⟨relay, List.nil_sublist _⟩
      · obtain ⟨relay', -, rfl⟩ := List.mem_map.1 hline
        exact .inr ⟨relay', hsub⟩
  · obtain ⟨kept, rest, hrelays, rfl, hfrom⟩ := List.map_eq_append_iff.1 hlines
    obtain ⟨relay₁, rest', rfl, rfl, hbehind⟩ := List.map_eq_cons_iff.1 hfrom
    obtain ⟨lost, rest'', rfl, rfl, hfrom'⟩ := List.map_eq_append_iff.1 hbehind
    obtain ⟨relay₂, kept', rfl, rfl, rfl⟩ := List.map_eq_cons_iff.1 hfrom'
    have hnodup : ((before relay ++ kept) ++ relay₁ :: (lost ++ relay₂ :: kept')).Nodup := by
      rw [List.append_assoc, ← hrelays, ← relays_eq]
      decide
    have hnone := @load_eq_none_of_across toml limit _ _ _ _ _ _ n m hnodup (by
      rw [hsplit, hparts, List.map_append]
      simp only [List.append_assoc])
    intro loaded hload
    rw [hnone] at hload
    cases hload

/-! ## The interrupted save -/

/-- The event with another block. -/
def BridgeChecked.withBlock : BridgeChecked → UInt64 → BridgeChecked
  | .depositRelay _, block => .depositRelay block
  | .withdrawRelay _, block => .withdrawRelay block
  | .withdrawConfirm _, block => .withdrawConfirm block

@[simp] theorem BridgeChecked.relay_withBlock (check : BridgeChecked) (block : UInt64) :
    (check.withBlock block).relay = check.relay := by
  cases check <;> rfl

@[simp] theorem BridgeChecked.block_withBlock (check : BridgeChecked) (block : UInt64) :
    (check.withBlock block).block = block := by
  cases check <;> rfl

/-- The file after a save that stopped when some bytes were written. -/
def BridgeFile.torn (self : BridgeFile) (check : BridgeChecked) (written : Nat) : Bytes :=
  overwrite self.file ((self.database.update check).display.take written)

/-- A write error and a crash leave the same file. -/
theorem BridgeFile.poll_writeError (self : BridgeFile) (check : BridgeChecked)
    (kind : IoErrorKind) (written : Nat) :
    self.poll (.ok (.ready (some check))) (.writeError kind written)
      = (⟨self.database.update check, self.torn check written⟩, .error (.io kind)) := rfl

namespace Database

/-- The number of new digits that the save has written. -/
def cut (self : Database) (check : BridgeChecked) (written : Nat) : Nat :=
  written - (self.textBefore check.relay).length

/-- The first digits of the new number, and the others of the old one. -/
def mixedDigits (self : Database) (check : BridgeChecked) (written : Nat) : Bytes :=
  Decimal.mixture (self.checked check.relay).toNat check.block.toNat (self.cut check written)

/-- The two numbers have the same length, the old digits behind the cut are
greater than the new ones, and TOML has all numbers of the mixture. -/
def Crossed (self : Database) (check : BridgeChecked) (written : Nat) : Prop :=
  (Decimal.digits (self.checked check.relay).toNat).length
      = (Decimal.digits check.block.toNat).length ∧
    Decimal.value ((Decimal.digits check.block.toNat).drop (self.cut check written))
      < Decimal.value
          ((Decimal.digits (self.checked check.relay).toNat).drop (self.cut check written)) ∧
    Decimal.value (self.mixedDigits check written) < 2 ^ 63 ∧
    (self.update (check.withBlock 0)).Representable

instance (self : Database) (check : BridgeChecked) (written : Nat) :
    Decidable (self.Crossed check written) :=
  inferInstanceAs (Decidable (_ ∧ _))

/-- The text with another number at a checkpoint. -/
def textWith (self : Database) (relay : Relay) (n : Nat) : Bytes :=
  self.textBefore relay ++ Decimal.digits n ++ self.textAfter relay

theorem display_eq_textWith (self : Database) (check : BridgeChecked) :
    (self.update check).display = self.textWith check.relay check.block.toNat :=
  display_update self check

theorem update_update (self : Database) {check check' : BridgeChecked}
    (h : check.relay = check'.relay) : (self.update check).update check' = self.update check' := by
  cases check <;> cases check' <;> first | rfl | cases h

end Database

theorem splitOn_textWith (database : Database) (relay : Relay) (n : Nat) :
    (database.textWith relay n).splitOn newline
      = database.contractLines ++ (before relay).map database.checkpointLine
        ++ fieldLine (.checked relay, .integer n) :: (after relay).map database.checkpointLine
        ++ [[]] := by
  have htext : database.textWith relay n
      = unlines newline (database.contractLines ++ (before relay).map database.checkpointLine)
        ++ (fieldLine (.checked relay, .integer n) ++ newline ::
          unlines newline ((after relay).map database.checkpointLine)) := by
    simp [textWith, textBefore, textAfter, fieldLine, assignment, Value.display]
  rw [htext]
  exact splitOn_line (newline_not_mem_lines database (before relay))
    (@newline_not_mem_fieldLine (.checked relay, .integer n) trivial)
    (List.forall_mem_append.1 (newline_not_mem_lines database (after relay))).2

/-- A number that is too large for a block is not read. -/
theorem load_textWith_of_large (toml : Toml) (database : Database) (relay : Relay) {n : Nat}
    (h : 2 ^ 64 ≤ n) : Database.load toml (database.textWith relay n) = none := by
  have hlines : ∀ line ∈ (database.textWith relay n).splitOn newline,
      line ∈ database.contractLines ∨ line = [] ∨
        ∃ relay' m, (relay' = relay → m = n) ∧ line = fieldLine (.checked relay', .integer m) := by
    have hother : ∀ relay' ∈ before relay ++ after relay, ∃ relay'' m, (relay'' = relay → m = n) ∧
        database.checkpointLine relay' = fieldLine (.checked relay'', .integer m) := by
      intro relay' hmem
      refine ⟨relay', _, fun heq => ?_, rfl⟩
      subst heq
      exact absurd hmem (not_mem_before_append_after relay')
    intro line hline
    rw [splitOn_textWith] at hline
    simp only [List.mem_append, List.mem_cons, List.mem_map, List.not_mem_nil, or_false] at hline
    rcases hline with ((hline | ⟨relay', hmem, rfl⟩) | rfl | ⟨relay', hmem, rfl⟩) | rfl
    · exact .inl hline
    · exact .inr (.inr (hother relay' (List.mem_append_left _ hmem)))
    · exact .inr (.inr ⟨relay, n, fun _ => rfl, rfl⟩)
    · exact .inr (.inr (hother relay' (List.mem_append_right _ hmem)))
    · exact .inr (.inl rfl)
  have hplain : IsPlain (database.textWith relay n) := by
    refine isPlain_of_lines fun line hline => (hlines line hline).imp_right ?_
    rintro (rfl | ⟨relay', m, -, rfl⟩)
    · exact isBare_nil
    · exact isBare_fieldLine _ _
  refine Option.eq_none_iff_forall_ne_some.2 fun loaded hload => ?_
  obtain ⟨line, hline, literal, hassigns, hvalue⟩ :=
    toml.fromStr_plain _ loaded hplain hload relay
  rcases hlines line hline with hcontract | rfl | ⟨relay', m, hm, rfl⟩
  · exact not_assigns_of_mem_contractLines hcontract hassigns
  · exact not_assigns_nil hassigns
  · obtain ⟨hrelay, rfl⟩ :=
      @eq_of_assigns literal relay (.checked relay', .integer m) trivial hassigns
    cases hrelay
    have hdigits := hvalue Decimal.isDigit_of_mem_digits
    rw [Value.display, Decimal.value_digits, hm rfl] at hdigits
    have hlt : (loaded.checked relay).toNat < 2 ^ 64 := UInt64.toNat_lt _
    omega

variable {database : Database} {check : BridgeChecked}

theorem representable_withBlock_iff (block : UInt64) :
    (database.update (check.withBlock block)).Representable ↔
      block.toNat < 2 ^ 63 ∧ (database.update (check.withBlock 0)).Representable := by
  constructor
  · intro h
    have hsame := BridgeFile.representable_update_iff h (check.withBlock block)
    have hzero := BridgeFile.representable_update_iff h (check.withBlock 0)
    rw [update_update _ rfl, BridgeChecked.block_withBlock] at hsame
    rw [update_update _ (by simp), BridgeChecked.block_withBlock] at hzero
    exact ⟨hsame.1 h, hzero.2 (by decide)⟩
  · rintro ⟨hblock, h⟩
    have hupdate := BridgeFile.representable_update_iff h (check.withBlock block)
    rw [update_update _ (by simp), BridgeChecked.block_withBlock] at hupdate
    exact hupdate.2 hblock

/-- The text with another number is the text of a database, if the number is a
block. -/
theorem load_textWith_of_lt (toml : Toml) {n : Nat} (h : n < 2 ^ 64) :
    Database.load toml (database.textWith check.relay n)
      = if n < 2 ^ 63 ∧ (database.update (check.withBlock 0)).Representable then
          some (database.update (check.withBlock (UInt64.ofNat n)))
        else none := by
  have hblock : (UInt64.ofNat n).toNat = n := by
    rw [UInt64.toNat_ofNat', Nat.mod_eq_of_lt h]
  have htext : database.textWith check.relay n
      = (database.update (check.withBlock (UInt64.ofNat n))).display := by
    rw [display_eq_textWith, BridgeChecked.relay_withBlock, BridgeChecked.block_withBlock, hblock]
  have hiff := @representable_withBlock_iff database check (UInt64.ofNat n)
  rw [hblock] at hiff
  rw [htext, Database.load, toml.fromStr_display, if_congr hiff rfl rfl]

/-- What the text with another number gives. -/
theorem notAhead_textWith_iff (toml : Toml) (n : Nat) :
    NotAhead toml (database.textWith check.relay n) (database.update check) ↔
      (n < 2 ^ 63 → (database.update (check.withBlock 0)).Representable →
        n ≤ check.block.toNat) := by
  rcases Nat.lt_or_ge n (2 ^ 64) with hn | hn
  · have hblock : (UInt64.ofNat n).toNat = n := by
      rw [UInt64.toNat_ofNat', Nat.mod_eq_of_lt hn]
    have hself : (database.update (check.withBlock (UInt64.ofNat n))).checked check.relay
        = UInt64.ofNat n := by
      have hupdate := checked_update_self database (check.withBlock (UInt64.ofNat n))
      rwa [BridgeChecked.relay_withBlock, BridgeChecked.block_withBlock] at hupdate
    have hload := @load_textWith_of_lt database check toml n hn
    constructor
    · intro hsafe hsmall hrepresentable
      rw [if_pos ⟨hsmall, hrepresentable⟩] at hload
      have hle := hsafe _ hload check.relay
      rwa [hself, checked_update_self, UInt64.le_iff_toNat_le, hblock] at hle
    · intro hle loaded hloaded relay
      rw [hload] at hloaded
      split at hloaded
      · rename_i hsmall
        cases hloaded
        by_cases hrelay : relay = check.relay
        · rw [hrelay, hself, checked_update_self, UInt64.le_iff_toNat_le, hblock]
          exact hle hsmall.1 hsmall.2
        · rw [checked_update_of_ne _ hrelay, checked_update_of_ne _ (by simpa using hrelay)]
          exact UInt64.le_refl _
      · cases hloaded
  · have hnone := load_textWith_of_large toml database check.relay hn
    refine iff_of_true (fun loaded hloaded => ?_) fun hsmall => ?_
    · rw [hnone] at hloaded
      cases hloaded
    · omega

/-- The file holds the first bytes of the new text and the others of the old
one. -/
theorem torn_eq (h : database.checked check.relay ≤ check.block) (written : Nat) :
    BridgeFile.torn ⟨database, database.display⟩ check written
      = (database.update check).display.take written ++ database.display.drop written := by
  refine overwrite_take ?_ written
  have hdigits := Decimal.length_digits_mono (UInt64.le_iff_toNat_le.1 h)
  have hlength := database.length_display_update check
  show database.display.length ≤ (database.update check).display.length
  omega

/-- Up to the end of the old digits, the file has a mixed number. -/
theorem torn_eq_textWith (h : database.checked check.relay ≤ check.block) {written : Nat}
    (hmixed : (Decimal.digits (database.checked check.relay).toNat).length
        = (Decimal.digits check.block.toNat).length ∨
      written ≤ (database.textBefore check.relay).length
        + (Decimal.digits (database.checked check.relay).toNat).length) :
    BridgeFile.torn ⟨database, database.display⟩ check written
      = database.textWith check.relay (Decimal.value (database.mixedDigits check written)) := by
  have hle := UInt64.le_iff_toNat_le.1 h
  rw [torn_eq h, display_update, display_eq database check.relay, textWith, mixedDigits,
    Decimal.digits_value_mixture _ hle]
  rcases hmixed with hlength | hwritten
  · exact mixture_of_length_eq hlength written
  · exact mixture_of_length_le (Decimal.length_digits_mono hle) hwritten

/-- Behind the old digits, the file is the new text with a gap. -/
theorem notAhead_torn_of_gap (toml : Toml) (h : database.checked check.relay ≤ check.block)
    {written : Nat} (hwritten : (database.textBefore check.relay).length
      + (Decimal.digits (database.checked check.relay).toNat).length ≤ written) :
    NotAhead toml (BridgeFile.torn ⟨database, database.display⟩ check written)
      (database.update check) := by
  have hle := UInt64.le_iff_toNat_le.1 h
  have hgap : BridgeFile.torn ⟨database, database.display⟩ check written
      = (database.update check).display.take written
        ++ (database.update check).display.drop (written
          + ((Decimal.digits check.block.toNat).length
            - (Decimal.digits (database.checked check.relay).toNat).length)) := by
    rw [torn_eq h, display_update, display_eq database check.relay]
    exact mixture_eq_gap (Decimal.length_digits_mono hle) hwritten
  have hstart : (unlines newline ((database.update check).contractLines
      ++ (before check.relay).map (database.update check).checkpointLine)).length ≤ written := by
    rw [← textBefore_update database check, textBefore, List.length_append] at hwritten
    omega
  obtain ⟨j, rfl⟩ := Nat.exists_eq_add_of_le hstart
  rw [hgap, display_eq_unlines (database.update check) check.relay, Nat.add_assoc,
    List.take_length_add_append, List.drop_length_add_append, List.append_assoc]
  refine notAhead_of_gap toml _ check.relay ?_
  exact lines_gap (List.forall_mem_append.1
    (newline_not_mem_lines _ (check.relay :: after check.relay))).2 _ _

/-- The save stops after any number of bytes: what can be loaded afterwards is
not ahead of what the relays have yielded, if and only if the two numbers are
not crossed. -/
theorem torn_save_iff (toml : Toml) (database : Database) (check : BridgeChecked)
    (h : database.checked check.relay ≤ check.block) (written : Nat) :
    NotAhead toml (BridgeFile.torn ⟨database, database.display⟩ check written)
        (database.update check) ↔ ¬ database.Crossed check written := by
  have hle := UInt64.le_iff_toNat_le.1 h
  rcases (Decimal.length_digits_mono hle).eq_or_lt with hlength | hlength
  · have hvalue := Decimal.value_mixture_le_iff (database.cut check written) hlength
    rw [torn_eq_textWith h (.inl hlength), notAhead_textWith_iff, Crossed, mixedDigits]
    constructor
    · rintro hsafe ⟨-, hgreater, hsmall, hrepresentable⟩
      exact Nat.not_le.2 hgreater (hvalue.1 (hsafe hsmall hrepresentable))
    · intro hcrossed hsmall hrepresentable
      by_contra hahead
      exact hcrossed ⟨hlength, Nat.not_le.1 (mt hvalue.2 hahead), hsmall, hrepresentable⟩
  · refine iff_of_true ?_ fun hcrossed => hlength.ne hcrossed.1
    rcases Nat.le_total written ((database.textBefore check.relay).length
      + (Decimal.digits (database.checked check.relay).toNat).length) with hwritten | hwritten
    · rw [torn_eq_textWith h (.inr hwritten), notAhead_textWith_iff]
      intro _ _
      exact Decimal.value_mixture_le hlength (Nat.sub_le_iff_le_add'.2 hwritten)
    · exact notAhead_torn_of_gap toml h hwritten

/-! ### A carry -/

namespace BridgeFile

/-- The deposits are checked up to some block. -/
def checkedUpTo (block : UInt64) : Database := { testDatabase with checkedDepositRelay := block }

/-- The number gets longer: the save of block 100 stops behind its first digit,
and the file has the block 19. -/
theorem torn_save_longer_number :
    NotAhead Toml.simple (torn ⟨checkedUpTo 99, (checkedUpTo 99).display⟩ (.depositRelay 100)
      (((checkedUpTo 99).textBefore .depositRelay).length + 1))
      ((checkedUpTo 99).update (.depositRelay 100)) :=
  (torn_save_iff Toml.simple (checkedUpTo 99) (.depositRelay 100) (by decide) _).2
    (by decide +kernel)

/-- The save of block 200 stops behind its first digit: the file has the block
299. -/
theorem torn_save_skips_blocks :
    let file := torn ⟨checkedUpTo 199, (checkedUpTo 199).display⟩ (.depositRelay 200)
      (((checkedUpTo 199).textBefore .depositRelay).length + 1)
    Database.load Toml.simple file = some ((checkedUpTo 199).update (.depositRelay 299)) ∧
      ¬ NotAhead Toml.simple file ((checkedUpTo 199).update (.depositRelay 200)) := by
  have hload : Database.load Toml.simple (torn ⟨checkedUpTo 199, (checkedUpTo 199).display⟩
      (.depositRelay 200) (((checkedUpTo 199).textBefore .depositRelay).length + 1))
      = some ((checkedUpTo 199).update (.depositRelay 299)) := by
    decide +kernel
  exact ⟨hload, fun h => absurd (h _ hload .depositRelay) (by decide)⟩

end BridgeFile

end PoaBridge
