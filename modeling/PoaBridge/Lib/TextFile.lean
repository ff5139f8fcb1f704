import Mathlib.Data.List.Basic

/-!
# Files that are overwritten, and their lines

`overwrite file written` is a file after `written` was written at its start,
without truncating it.  The rest of the old content stays, so the content is
what was written exactly when the file was not longer (`overwrite_eq_iff`).

When two contents differ in one field and only the first bytes of the new one
are written, the file is a mixture of the two.  `mixture_of_length_eq` and
`mixture_of_length_le` say which one, as long as the cut is not behind the old
field.  Behind it, the mixture is the new content with a gap
(`mixture_eq_gap`).

`unlines` are the lines of a text with the newline behind each of them.
`lines_gap` says what the lines of a text are when it has a gap: one line is
the beginning of a line and the end of the same line or of a later one, and the
others are lines of the text.
-/

namespace TextFile

universe u

variable {α : Type u}

/-! ## Overwriting -/

/-- A file after `written` was written at its start. -/
def overwrite (file written : List α) : List α := written ++ file.drop written.length

/-- Nothing of the old content stays exactly when it was not longer. -/
theorem overwrite_eq_iff {file written : List α} :
    overwrite file written = written ↔ file.length ≤ written.length := by
  rw [overwrite, List.append_right_eq_self, List.drop_eq_nil_iff]

/-- The first `k` bytes of the new content, and the others of the old one. -/
theorem overwrite_take {file text : List α} (h : file.length ≤ text.length) (k : Nat) :
    overwrite file (text.take k) = text.take k ++ file.drop k := by
  rw [overwrite, List.length_take]
  rcases Nat.le_total k text.length with hk | hk
  · rw [Nat.min_eq_left hk]
  · rw [Nat.min_eq_right hk, List.drop_of_length_le h, List.drop_of_length_le (Nat.le_trans h hk)]

section Mixture

variable {start old new rest : List α}

/-- The cut is not behind the old field: the mixture has a mixed field. -/
theorem mixture_of_length_le (h : old.length ≤ new.length) {k : Nat}
    (hk : k ≤ start.length + old.length) :
    (start ++ new ++ rest).take k ++ (start ++ old ++ rest).drop k
      = start ++ (new.take (k - start.length) ++ old.drop (k - start.length)) ++ rest := by
  rcases Nat.le_total k start.length with hstart | hstart
  · rw [Nat.sub_eq_zero_of_le hstart, List.append_assoc, List.append_assoc,
      List.take_append_of_le_length hstart, List.drop_append_of_le_length hstart,
      ← List.append_assoc, List.take_append_drop]
    simp
  · obtain ⟨j, rfl⟩ := Nat.exists_eq_add_of_le hstart
    have hj : j ≤ old.length := by omega
    rw [Nat.add_sub_cancel_left, List.append_assoc, List.append_assoc, List.take_length_add_append,
      List.drop_length_add_append, List.take_append_of_le_length (Nat.le_trans hj h),
      List.drop_append_of_le_length hj]
    simp [List.append_assoc]

/-- Two fields of the same length: the mixture has a mixed field. -/
theorem mixture_of_length_eq (h : old.length = new.length) (k : Nat) :
    (start ++ new ++ rest).take k ++ (start ++ old ++ rest).drop k
      = start ++ (new.take (k - start.length) ++ old.drop (k - start.length)) ++ rest := by
  rcases Nat.le_total k (start.length + old.length) with hk | hk
  · exact mixture_of_length_le (Nat.le_of_eq h) hk
  · obtain ⟨j, rfl⟩ := Nat.exists_eq_add_of_le hk
    have htake : (start ++ new ++ rest).take (start.length + old.length + j)
        = start ++ new ++ rest.take j := by
      rw [h, ← List.length_append, List.take_length_add_append]
    have hdrop : (start ++ old ++ rest).drop (start.length + old.length + j) = rest.drop j := by
      rw [← List.length_append, List.drop_length_add_append]
    have hfield : new.take (start.length + old.length + j - start.length) = new :=
      List.take_of_length_le (by omega)
    have hnothing : old.drop (start.length + old.length + j - start.length) = [] :=
      List.drop_of_length_le (by omega)
    rw [htake, hdrop, hfield, hnothing, List.append_nil, List.append_assoc,
      List.take_append_drop]

/-- The cut is behind the old field, and the new one is longer: the bytes by
which it is longer are missing in the new content. -/
theorem mixture_eq_gap {k : Nat} (h : old.length ≤ new.length)
    (hk : start.length + old.length ≤ k) :
    (start ++ new ++ rest).take k ++ (start ++ old ++ rest).drop k
      = (start ++ new ++ rest).take k
        ++ (start ++ new ++ rest).drop (k + (new.length - old.length)) := by
  obtain ⟨j, rfl⟩ := Nat.exists_eq_add_of_le hk
  rw [show start.length + old.length + j + (new.length - old.length)
      = (start ++ new).length + j by rw [List.length_append]; omega,
    List.drop_length_add_append,
    show start.length + old.length + j = (start ++ old).length + j by simp,
    List.drop_length_add_append]

end Mixture

/-! ## Lines -/

section Lines

variable [BEq α] [LawfulBEq α] {newline : α}

/-- The lines of a text, with a newline behind each of them. -/
def unlines (newline : α) (lines : List (List α)) : List α :=
  lines.flatMap fun line => line ++ [newline]

omit [BEq α] [LawfulBEq α] in
theorem unlines_append (before after : List (List α)) :
    unlines newline (before ++ after) = unlines newline before ++ unlines newline after :=
  List.flatMap_append

omit [BEq α] [LawfulBEq α] in
theorem unlines_cons (line : List α) (lines : List (List α)) :
    unlines newline (line :: lines) = line ++ newline :: unlines newline lines := by
  simp [unlines]

/-- The lines, and the lines of what stands behind the last newline. -/
theorem splitOn_unlines_append {lines : List (List α)} (h : ∀ line ∈ lines, newline ∉ line)
    (text : List α) :
    (unlines newline lines ++ text).splitOn newline = lines ++ text.splitOn newline := by
  induction lines with
  | nil => rfl
  | cons line lines ih =>
    obtain ⟨hline, hrest⟩ := List.forall_mem_cons.1 h
    rw [unlines_cons, List.append_assoc, List.cons_append,
      List.splitOn_append_cons_self_of_not_mem hline, ih hrest, List.cons_append]

theorem splitOn_unlines {lines : List (List α)} (h : ∀ line ∈ lines, newline ∉ line) :
    (unlines newline lines).splitOn newline = lines ++ [[]] := by
  rw [← List.append_nil (unlines newline lines), splitOn_unlines_append h]
  rfl

/-- A line between other lines. -/
theorem splitOn_line {before after : List (List α)} {line : List α}
    (hbefore : ∀ l ∈ before, newline ∉ l) (hline : newline ∉ line)
    (hafter : ∀ l ∈ after, newline ∉ l) :
    (unlines newline before ++ (line ++ newline :: unlines newline after)).splitOn newline
      = before ++ line :: after ++ [[]] := by
  rw [splitOn_unlines_append hbefore, List.splitOn_append_cons_self_of_not_mem hline,
    splitOn_unlines hafter, List.append_assoc, List.cons_append]

omit [BEq α] [LawfulBEq α] in
/-- A position in a text is a position in one of its lines. -/
theorem exists_line {lines : List (List α)} {k : Nat} (h : k < (unlines newline lines).length) :
    ∃ before line after n, lines = before ++ line :: after ∧ n ≤ line.length ∧
      k = (unlines newline before).length + n := by
  induction lines generalizing k with
  | nil => cases h
  | cons line lines ih =>
    rcases Nat.lt_or_ge line.length k with hk | hk
    · rw [unlines_cons, List.length_append, List.length_cons] at h
      obtain ⟨before, line', after, n, rfl, hn, hpos⟩ :=
        @ih (k - (line.length + 1)) (by omega)
      refine ⟨line :: before, line', after, n, rfl, hn, ?_⟩
      rw [unlines_cons, List.length_append, List.length_cons]
      omega
    · exact ⟨[], line, lines, k, rfl, hk, (Nat.zero_add k).symm⟩

omit [BEq α] [LawfulBEq α] in
theorem take_unlines {before after : List (List α)} {line : List α} {n : Nat}
    (hn : n ≤ line.length) :
    (unlines newline (before ++ line :: after)).take ((unlines newline before).length + n)
      = unlines newline before ++ line.take n := by
  rw [unlines_append, unlines_cons, List.take_length_add_append,
    List.take_append_of_le_length hn]

omit [BEq α] [LawfulBEq α] in
theorem drop_unlines {before after : List (List α)} {line : List α} {n : Nat}
    (hn : n ≤ line.length) :
    (unlines newline (before ++ line :: after)).drop ((unlines newline before).length + n)
      = line.drop n ++ newline :: unlines newline after := by
  rw [unlines_append, unlines_cons, List.drop_length_add_append,
    List.drop_append_of_le_length hn]

/-- The lines of a text with a gap. -/
inductive Gap (lines : List (List α)) : List (List α) → Prop where
  /-- The gap is empty, or behind the end. -/
  | whole : Gap lines (lines ++ [[]])
  /-- The gap reaches to the end. -/
  | cut {before after : List (List α)} {line : List α} (n : Nat)
    (h : lines = before ++ line :: after) : Gap lines (before ++ [line.take n])
  /-- The gap is in a line. -/
  | inside {before after : List (List α)} {line : List α} {n m : Nat}
    (h : lines = before ++ line :: after) (hn : n ≤ m) :
    Gap lines (before ++ (line.take n ++ line.drop m) :: after ++ [[]])
  /-- The gap begins in a line and ends in a later one. -/
  | across {before between after : List (List α)} {line line' : List α} (n m : Nat)
    (h : lines = before ++ line :: (between ++ line' :: after)) :
    Gap lines (before ++ (line.take n ++ line'.drop m) :: after ++ [[]])

theorem lines_gap {lines : List (List α)} (h : ∀ line ∈ lines, newline ∉ line) (k width : Nat) :
    Gap lines (((unlines newline lines).take k
      ++ (unlines newline lines).drop (k + width)).splitOn newline) := by
  rcases Nat.lt_or_ge k (unlines newline lines).length with hk | hk
  · obtain ⟨before, line, after, n, rfl, hn, rfl⟩ := exists_line hk
    have hbefore : ∀ l ∈ before, newline ∉ l := fun l hl => h l (by simp [hl])
    have hline : newline ∉ line := h line (by simp)
    have htake : newline ∉ line.take n := fun hmem => hline (List.mem_of_mem_take hmem)
    rw [take_unlines hn]
    rcases Nat.lt_or_ge ((unlines newline before).length + n + width)
        (unlines newline (before ++ line :: after)).length with hend | hend
    · -- the other end of the gap, seen from the line where the gap begins
      rw [unlines_append, List.length_append] at hend
      obtain ⟨between, line', after', m, hlines, hm, hpos⟩ :=
        @exists_line _ newline (line :: after) (n + width) (by omega)
      rw [hlines, show (unlines newline before).length + n + width
          = (unlines newline (before ++ between)).length + m by
        rw [unlines_append, List.length_append]; omega,
        ← List.append_assoc before, drop_unlines hm]
      have hall : ∀ l ∈ line' :: after', newline ∉ l := by
        intro l hl
        refine h l (List.mem_append_right _ ?_)
        rw [hlines]
        exact List.mem_append_right _ hl
      obtain ⟨hline', hafter'⟩ := List.forall_mem_cons.1 hall
      have hmerged : newline ∉ line.take n ++ line'.drop m := by
        intro hmem
        rcases List.mem_append.1 hmem with hmem | hmem
        · exact htake hmem
        · exact hline' (List.mem_of_mem_drop hmem)
      rw [List.append_assoc (unlines newline before), ← List.append_assoc (line.take n),
        splitOn_line hbefore hmerged hafter']
      cases between with
      | nil =>
        cases hlines
        refine .inside (by simp) ?_
        rw [show (unlines newline ([] : List (List α))).length = 0 from rfl] at hpos
        omega
      | cons _ between =>
        cases hlines
        exact @Gap.across _ _ before between after' line line' n m (by simp)
    · rw [List.drop_of_length_le hend, List.append_nil, splitOn_unlines_append hbefore,
        List.splitOn_eq_singleton htake]
      exact .cut n rfl
  · rw [List.take_of_length_le hk, List.drop_of_length_le (Nat.le_trans hk (Nat.le_add_right _ _)),
      List.append_nil, splitOn_unlines h]
    exact .whole

omit [BEq α] [LawfulBEq α] in
/-- The lines of a text with a gap are parts of its lines, unless the gap goes
over the end of a line. -/
theorem Gap.parts_or_across {lines parts : List (List α)} (h : Gap lines parts) :
    (∀ part ∈ parts, part = [] ∨ ∃ line ∈ lines, part.Sublist line) ∨
      ∃ before between after line line' n m,
        lines = before ++ line :: (between ++ line' :: after) ∧
        parts = before ++ (line.take n ++ line'.drop m) :: after ++ [[]] := by
  cases h with
  | whole =>
    refine .inl fun part hpart => ?_
    rcases List.mem_append.1 hpart with hpart | hpart
    · exact .inr ⟨part, hpart, List.Sublist.refl _⟩
    · exact .inl (List.mem_singleton.1 hpart)
  | cut n h =>
    subst h
    refine .inl fun part hpart => ?_
    rcases List.mem_append.1 hpart with hpart | hpart
    · exact .inr ⟨part, List.mem_append_left _ hpart, List.Sublist.refl _⟩
    · rw [List.mem_singleton.1 hpart]
      exact .inr ⟨_, List.mem_append_right _ (List.mem_cons_self ..), List.take_sublist ..⟩
  | @inside before after line n m h hn =>
    subst h
    refine .inl fun part hpart => ?_
    rcases List.mem_append.1 hpart with hpart | hpart
    · rcases List.mem_append.1 hpart with hpart | hpart
      · exact .inr ⟨part, List.mem_append_left _ hpart, List.Sublist.refl _⟩
      · rcases List.mem_cons.1 hpart with rfl | hpart
        · refine .inr ⟨line, List.mem_append_right _ (List.mem_cons_self ..), ?_⟩
          have hsub := (List.Sublist.refl (line.take n)).append
            (List.drop_sublist_drop_left line hn)
          rwa [List.take_append_drop] at hsub
        · exact .inr ⟨part, List.mem_append_right _ (List.mem_cons_of_mem _ hpart),
            List.Sublist.refl _⟩
    · exact .inl (List.mem_singleton.1 hpart)
  | across n m h => exact .inr ⟨_, _, _, _, _, n, m, h, rfl⟩

end Lines

end TextFile
