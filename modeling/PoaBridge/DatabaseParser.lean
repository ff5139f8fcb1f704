import Mathlib.Data.List.TakeWhile
import PoaBridge.DatabaseText

/-!
# A parser for the database

`Toml.simple` reads the fragment of TOML that a database needs: comments and
blank lines, and one assignment on a line, of an integer or of a string.  It
has the laws of a `Toml`: `parse_display` is the round trip of the text that
the bridge writes, and `exists_line_of_parse` finds the line of a checkpoint.
-/

namespace PoaBridge

open TextFile Toml

namespace Toml

/-- The bytes without the blanks around them. -/
def trim (bytes : Bytes) : Bytes :=
  ((bytes.dropWhile (· == blank)).reverse.dropWhile (· == blank)).reverse

/-- The number that hexadecimal digits denote. -/
def hexValue (ds : Bytes) : Nat :=
  ds.foldl (fun sofar d => 16 * sofar + (d.toNat - if d.toNat < 97 then 48 else 87)) 0

/-- An integer without leading zeros, or a string without quotes in it. -/
def parseValue (literal : Bytes) : Option Value :=
  if literal = Decimal.digits (Decimal.value literal) then
    if Decimal.value literal < 2 ^ 63 then some (.integer (Decimal.value literal)) else none
  else if literal = Value.display (.text literal.tail.dropLast) ∧ quote ∉ literal.tail.dropLast then
    some (.text literal.tail.dropLast)
  else none

/-- A line: nothing, or a key and its value. -/
def parseLine (line : Bytes) : Option (Option (Bytes × Value)) :=
  let content := trim line
  if content = [] ∨ content.head? = some hashSign then some none
  else
    let key := trim (content.takeWhile (· != equals))
    match content.dropWhile (· != equals) with
    | [] => none
    | _ :: literal =>
      if key ≠ [] ∧ key.all fun b => decide (IsWord b) then
        (parseValue (trim literal)).map fun value => some (key, value)
      else none

/-- The assignments of a text. -/
def parseLines : List Bytes → Option (List (Bytes × Value))
  | [] => some []
  | line :: lines => do
    let entry ← parseLine line
    let entries ← parseLines lines
    return entry.toList ++ entries

def asInteger : Value → Option UInt64
  | .integer n => some (UInt64.ofNat n)
  | .text _ => none

def asAddress : Value → Option Address
  | .integer _ => none
  | .text content =>
    let a := BitVec.ofNat 160 (hexValue (content.drop 2))
    if Value.text content = address a then some a else none

/-- A field that has to be there. -/
def required {α : Type} (entries : List (Bytes × Value)) (read : Value → Option α)
    (field : Database.Field) : Option α :=
  (entries.lookup field.key).bind read

/-- A field that can be missing. -/
def optional {α : Type} (entries : List (Bytes × Value)) (read : Value → Option α)
    (field : Database.Field) : Option (Option α) :=
  match entries.lookup field.key with
  | none => some none
  | some value => (read value).map some

/-- The database with the given fields.  Other keys are ignored, and no key
comes twice. -/
def parseDatabase (entries : List (Bytes × Value)) : Option Database := do
  require (entries.map Prod.fst).Nodup
  return {
    homeContractAddress := ← required entries asAddress .homeContractAddress
    foreignContractAddress := ← required entries asAddress .foreignContractAddress
    homeDeploy := ← optional entries asInteger .homeDeploy
    foreignDeploy := ← optional entries asInteger .foreignDeploy
    checkedDepositRelay := ← required entries asInteger (.checked .depositRelay)
    checkedWithdrawRelay := ← required entries asInteger (.checked .withdrawRelay)
    checkedWithdrawConfirm := ← required entries asInteger (.checked .withdrawConfirm) }

def parse (text : Bytes) : Option Database :=
  (parseLines (text.splitOn newline)).bind parseDatabase

/-! ## Blanks -/

/-- Some blanks stand around the bytes that remain. -/
theorem exists_blanks (bytes : Bytes) :
    ∃ blank₁ blank₂, IsBlank blank₁ ∧ IsBlank blank₂ ∧ bytes = blank₁ ++ trim bytes ++ blank₂ := by
  have htake : ∀ l : Bytes, IsBlank (l.takeWhile (· == blank)) := by
    intro l b hb
    have hblank := List.mem_takeWhile_imp hb
    exact eq_of_beq hblank
  refine ⟨bytes.takeWhile (· == blank),
    ((bytes.dropWhile (· == blank)).reverse.takeWhile (· == blank)).reverse, htake _, ?_, ?_⟩
  · intro b hb
    exact htake _ b (List.mem_reverse.1 hb)
  · rw [trim, List.append_assoc, ← List.reverse_append, List.takeWhile_append_dropWhile,
      List.reverse_reverse, List.takeWhile_append_dropWhile]

/-- The blanks are removed up to bytes that are not blank. -/
theorem trim_append {blank₁ blank₂ bytes : Bytes} (h₁ : IsBlank blank₁) (h₂ : IsBlank blank₂)
    (hne : bytes ≠ []) (hhead : bytes.head hne ≠ blank) (hlast : bytes.getLast hne ≠ blank) :
    trim (blank₁ ++ bytes ++ blank₂) = bytes := by
  have hdrop : ∀ (blanks rest : Bytes) (hrest : rest ≠ []), IsBlank blanks →
      rest.head hrest ≠ blank → (blanks ++ rest).dropWhile (· == blank) = rest := by
    intro blanks rest hrest hblanks hfirst
    rw [List.dropWhile_append_of_pos fun b hb => beq_iff_eq.2 (hblanks b hb)]
    cases rest with
    | nil => exact absurd rfl hrest
    | cons b rest => exact List.dropWhile_cons_of_neg (by simpa using hfirst)
  rw [trim, List.append_assoc,
    hdrop _ _ (by simp [hne]) h₁ (by rwa [List.head_append_of_ne_nil hne]),
    List.reverse_append, hdrop _ _ (by simp [hne]) (fun b hb => h₂ b (List.mem_reverse.1 hb))
      (by rwa [List.head_reverse]), List.reverse_reverse]

/-! ## Lines -/

theorem isBlank_nil : IsBlank [] := fun _ hb => by cases hb

theorem isBlank_singleton : IsBlank [blank] := fun _ hb => List.mem_singleton.1 hb

section Assignment

variable {key literal : Bytes} (hkey : key ≠ []) (hword : ∀ b ∈ key, IsWord b)
  (hliteral : literal ≠ []) (hblank : blank ∉ literal)

include hword in
theorem ne_blank_of_mem : ∀ b ∈ key, b ≠ blank :=
  fun b hb => ne_of_isWord (hword b hb) (by simp)

include hkey hword in
theorem trim_left : trim (key ++ [blank]) = key := by
  have htrim := trim_append isBlank_nil isBlank_singleton hkey
    (ne_blank_of_mem hword _ (List.head_mem hkey)) (ne_blank_of_mem hword _ (List.getLast_mem hkey))
  simpa using htrim

include hliteral hblank in
theorem trim_right : trim ([blank] ++ literal) = literal := by
  have htrim := trim_append isBlank_singleton isBlank_nil hliteral
    (fun h => hblank (h ▸ List.head_mem hliteral)) (fun h => hblank (h ▸ List.getLast_mem hliteral))
  simpa using htrim

theorem assignment_ne_nil : assignment key literal ≠ [] := by
  simp [assignment]

theorem head_assignment :
    (assignment key literal).head assignment_ne_nil = key.head hkey :=
  List.head_append_of_ne_nil hkey

include hkey hword hliteral hblank in
theorem trim_assignment : trim (assignment key literal) = assignment key literal := by
  have hlast : (assignment key literal).getLast assignment_ne_nil = literal.getLast hliteral := by
    simp [assignment, List.getLast_cons, hliteral]
  have htrim := trim_append isBlank_nil isBlank_nil (@assignment_ne_nil key literal)
    (by rw [head_assignment hkey]; exact ne_blank_of_mem hword _ (List.head_mem hkey))
    (by rw [hlast]; exact fun h => hblank (h ▸ List.getLast_mem hliteral))
  simpa using htrim

include hkey hword hliteral hblank in
/-- An assignment is read back. -/
theorem parseLine_assignment :
    parseLine (assignment key literal)
      = (parseValue literal).map fun value => some (key, value) := by
  have hhash : (assignment key literal).head? ≠ some hashSign := by
    rw [List.head?_eq_some_head assignment_ne_nil, head_assignment hkey]
    exact fun h => ne_of_isWord (hword _ (List.head_mem hkey)) (by simp) (Option.some.inj h)
  have hbefore : ∀ b ∈ key ++ [blank], (b != equals) = true := by
    intro b hb
    rcases List.mem_append.1 hb with hb | hb
    · exact bne_iff_ne.2 (ne_of_isWord (hword b hb) (by simp))
    · rw [List.mem_singleton.1 hb]
      rfl
  unfold parseLine
  dsimp only
  rw [trim_assignment hkey hword hliteral hblank, if_neg (not_or.2 ⟨assignment_ne_nil, hhash⟩),
    assignment_eq, List.dropWhile_append_of_pos hbefore, List.takeWhile_append_of_pos hbefore,
    show (equals :: ([blank] ++ literal)).takeWhile (· != equals) = [] from rfl,
    show (equals :: ([blank] ++ literal)).dropWhile (· != equals)
      = equals :: ([blank] ++ literal) from rfl,
    List.append_nil, trim_left hkey hword]
  dsimp only
  rw [if_pos ⟨hkey, List.all_eq_true.2 fun b hb => decide_eq_true (hword b hb)⟩,
    trim_right hliteral hblank]

end Assignment

/-- What was read from a line stands there, with blanks around it. -/
theorem exists_of_parseLine {line key : Bytes} {value : Value}
    (h : parseLine line = some (some (key, value))) :
    ∃ literal blank₁ blank₂ blank₃ blank₄, parseValue literal = some value ∧
      IsBlank blank₁ ∧ IsBlank blank₂ ∧ IsBlank blank₃ ∧ IsBlank blank₄ ∧
      line = blank₁ ++ key ++ blank₂ ++ equals :: (blank₃ ++ literal ++ blank₄) := by
  obtain ⟨left, right, hleft, hright, hline⟩ := exists_blanks line
  unfold parseLine at h
  dsimp only at h
  split at h
  · cases h
  · split at h
    · cases h
    · rename_i b literal hdrop
      split at h
      · obtain ⟨value', hvalue, heq⟩ := Option.map_eq_some_iff.1 h
        cases heq
        have hequals : b = equals := by
          have hhead := List.head_dropWhile_not (· != equals) (l := trim line) (by rw [hdrop]; simp)
          simpa [hdrop] using hhead
        obtain ⟨blank₁, blank₂, h₁, h₂, hkey⟩ :=
          exists_blanks ((trim line).takeWhile (· != equals))
        obtain ⟨blank₃, blank₄, h₃, h₄, hliteral⟩ := exists_blanks literal
        subst hequals
        have hcontent : trim line = (trim line).takeWhile (· != equals) ++ equals :: literal := by
          rw [← hdrop, List.takeWhile_append_dropWhile]
        refine ⟨trim literal, left ++ blank₁, blank₂, blank₃, blank₄ ++ right, hvalue, ?_, h₂, h₃,
          ?_, ?_⟩
        · exact fun b hb => (List.mem_append.1 hb).elim (hleft b) (h₁ b)
        · exact fun b hb => (List.mem_append.1 hb).elim (h₄ b) (hright b)
        · calc line
              = left ++ ((trim line).takeWhile (· != equals) ++ equals :: literal) ++ right := by
                rw [← hcontent, ← hline]
            _ = left ++ ((blank₁ ++ trim ((trim line).takeWhile (· != equals)) ++ blank₂)
                  ++ equals :: (blank₃ ++ trim literal ++ blank₄)) ++ right := by
                rw [← hkey, ← hliteral]
            _ = _ := by simp only [List.append_assoc, List.cons_append]
      · cases h

/-! ## Values -/

theorem eq_of_parseValue_integer {literal : Bytes} {n : Nat}
    (h : parseValue literal = some (.integer n)) :
    literal = Decimal.digits n ∧ n < 2 ^ 63 := by
  unfold parseValue at h
  split at h
  · split at h
    · cases h
      exact ⟨‹_›, ‹_›⟩
    · cases h
  · split at h <;> cases h

/-- The values that TOML has. -/
def Value.Fits : Value → Prop
  | .integer n => n < 2 ^ 63
  | .text _ => True

instance : (value : Value) → Decidable value.Fits
  | .integer n => inferInstanceAs (Decidable (n < 2 ^ 63))
  | .text _ => .isTrue trivial

theorem parseValue_display {value : Value} (h : value.IsClean) :
    parseValue value.display = if value.Fits then some value else none := by
  cases value with
  | integer n =>
    unfold parseValue Value.display
    dsimp only
    rw [Decimal.value_digits, if_pos rfl]
    rfl
  | text content =>
    have hdigits : ∀ n, Value.display (.text content) ≠ Decimal.digits n := by
      intro n heq
      have hmem : quote ∈ Decimal.digits n := by
        rw [← heq]
        exact List.mem_cons_self ..
      exact absurd (Decimal.isDigit_of_mem_digits quote hmem) (by decide)
    have hcontent : (Value.display (.text content)).tail.dropLast = content := by
      simp [Value.display]
    have hquote : quote ∉ content := fun hmem => ne_of_isWord (h quote hmem) (by simp) rfl
    unfold parseValue
    rw [if_neg (hdigits _), hcontent, if_pos ⟨rfl, hquote⟩, if_pos]
    trivial

theorem display_ne_nil (value : Value) : value.display ≠ [] := by
  cases value with
  | integer n => exact List.length_pos_iff.1 (Decimal.length_digits_pos n)
  | text content => simp [Value.display]

/-! ## Addresses -/

theorem toNat_hexDigit :
    ∀ n < 16, (hexDigit n).toNat - (if (hexDigit n).toNat < 97 then 48 else 87) = n := by decide

theorem hexValue_hex (bytes : Bytes) : hexValue (hex bytes) = BigEndian.decode bytes := by
  induction bytes using List.reverseRecOn with
  | nil => rfl
  | append_singleton bytes b ih =>
    have hlt : b.toNat < 256 := b.toNat_lt
    have hhex : hexValue (hex (bytes ++ [b]))
        = 16 * (16 * hexValue (hex bytes) + b.toNat / 16) + b.toNat % 16 := by
      rw [hex, List.flatMap_append, List.flatMap_singleton, ← hex, hexValue, List.foldl_append,
        ← hexValue, List.foldl_cons, List.foldl_cons, List.foldl_nil,
        toNat_hexDigit _ (by omega), toNat_hexDigit _ (by omega)]
    rw [hhex, ih, BigEndian.decode_append]
    simp only [BigEndian.decode, List.length_singleton, List.length_nil, pow_one, pow_zero]
    omega

theorem asAddress_address (a : Address) : asAddress (address a) = some a := by
  have hvalue : hexValue ((asciiBytes "0x" ++ hex (addressBytes a)).drop 2) = a.toNat := by
    rw [List.drop_left' (by decide), hexValue_hex, decode_addressBytes]
  unfold address asAddress
  dsimp only
  rw [hvalue, BitVec.ofNat_toNat, BitVec.setWidth_eq, if_pos]
  rfl

/-! ## The database -/

theorem key_ne_nil (field : Database.Field) : field.key ≠ [] := by
  rcases field with _ | _ | _ | _ | _ | _ | _ <;> decide

theorem key_beq (f g : Database.Field) : (f.key == g.key) = decide (f = g) := by
  rw [Bool.eq_iff_iff, beq_iff_eq, decide_eq_true_iff, key_inj]

theorem forall_fits_iff {database : Database} :
    (∀ field ∈ database.fields, field.2.Fits) ↔ database.Representable := by
  rcases database with ⟨home, foreign, _ | homeDeploy, _ | foreignDeploy, deposit, withdraw,
    confirm⟩ <;>
  simp [Database.fields, Database.contractFields, Database.Representable, Database.blockNumbers,
    Database.relays, Database.checkpointField, Database.checked, Value.Fits, address]

/-- The fields are read back, unless one of them is too large. -/
theorem parseLines_fields {fields : List (Database.Field × Value)}
    (h : ∀ field ∈ fields, field.2.IsClean) :
    parseLines (fields.map Database.fieldLine ++ [[]])
      = if ∀ field ∈ fields, field.2.Fits then
          some (fields.map fun field => (field.1.key, field.2))
        else none := by
  induction fields with
  | nil => rfl
  | cons field fields ih =>
    obtain ⟨hfield, hrest⟩ := List.forall_mem_cons.1 h
    have hline : parseLine (Database.fieldLine field)
        = if field.2.Fits then some (some (field.1.key, field.2)) else none := by
      rw [Database.fieldLine, parseLine_assignment (key_ne_nil _) (isWord_key _)
        (display_ne_nil _) (not_mem_display hfield blank (by simp)), parseValue_display hfield]
      split <;> rfl
    rw [List.map_cons, List.cons_append, parseLines, hline, ih hrest]
    by_cases hfits : field.2.Fits
    · by_cases hall : ∀ field ∈ fields, field.2.Fits
      · rw [if_pos hfits, if_pos hall, if_pos ?_]
        · rfl
        · exact List.forall_mem_cons.2 ⟨hfits, hall⟩
      · rw [if_pos hfits, if_neg hall, if_neg fun h => ?_]
        · rfl
        · exact hall (List.forall_mem_cons.1 h).2
    · have hsome : ¬ ∀ f ∈ field :: fields, f.2.Fits := fun h => hfits (h _ (List.mem_cons_self ..))
      rw [if_neg hfits, if_neg hsome]
      rfl

/-- The fields of a database give the database. -/
theorem parseDatabase_fields (database : Database) :
    parseDatabase (database.fields.map fun field => (field.1.key, field.2)) = some database := by
  rcases database with ⟨home, foreign, _ | homeDeploy, _ | foreignDeploy, deposit, withdraw,
    confirm⟩ <;>
  simp [Database.fields, Database.contractFields, Database.relays, Database.checkpointField,
    Database.checked, parseDatabase, required, optional, List.lookup_cons, key_beq, key_inj,
    asAddress_address, asInteger, require]

/-- The text that the bridge writes is read back. -/
theorem parse_display (database : Database) :
    parse database.display = if database.Representable then some database else none := by
  have hlines : database.display.splitOn newline
      = database.fields.map Database.fieldLine ++ [[]] := by
    refine splitOn_unlines fun line hline => ?_
    obtain ⟨field, hfield, rfl⟩ := List.mem_map.1 hline
    exact newline_not_mem_fieldLine (isClean_of_mem_fields field hfield)
  rw [parse, hlines, parseLines_fields isClean_of_mem_fields]
  by_cases h : database.Representable
  · rw [if_pos (forall_fits_iff.2 h), if_pos h, Option.bind_some, parseDatabase_fields]
  · rw [if_neg (mt forall_fits_iff.1 h), if_neg h]
    rfl

-- The text in the unit test of `bridge/src/database.rs`.
example :
    Database.display
      ⟨0x49edf201c1e139282643d5e7c6fb0c7219ad1db7, 0x49edf201c1e139282643d5e7c6fb0c7219ad1db8,
        some 100, some 101, 120, 121, 121⟩ =
    unlines newline
      [asciiBytes "home_contract_address = \"0x49edf201c1e139282643d5e7c6fb0c7219ad1db7\"",
        asciiBytes "foreign_contract_address = \"0x49edf201c1e139282643d5e7c6fb0c7219ad1db8\"",
        asciiBytes "home_deploy = 100",
        asciiBytes "foreign_deploy = 101",
        asciiBytes "checked_deposit_relay = 120",
        asciiBytes "checked_withdraw_relay = 121",
        asciiBytes "checked_withdraw_confirm = 121"] := by
  decide +kernel

/-- What a database was made of. -/
theorem parseDatabase_eq_some {entries : List (Bytes × Value)} {database : Database}
    (h : parseDatabase entries = some database) :
    (∀ relay, required entries asInteger (.checked relay) = some (database.checked relay)) ∧
      optional entries asInteger .homeDeploy = some database.homeDeploy ∧
      optional entries asInteger .foreignDeploy = some database.foreignDeploy := by
  simp only [parseDatabase, Option.bind_eq_bind, Option.pure_def, Option.bind_eq_some_iff,
    Option.some.injEq] at h
  obtain ⟨_, -, home, -, foreign, -, homeDeploy, hhome, foreignDeploy, hforeign, deposit, hdeposit,
    withdraw, hwithdraw, confirm, hconfirm, rfl⟩ := h
  refine ⟨fun relay => ?_, hhome, hforeign⟩
  cases relay with
  | depositRelay => exact hdeposit
  | withdrawRelay => exact hwithdraw
  | withdrawConfirm => exact hconfirm

theorem mem_of_lookup {entries : List (Bytes × Value)} {key : Bytes} {value : Value}
    (h : entries.lookup key = some value) : (key, value) ∈ entries := by
  obtain ⟨before, after, rfl, -⟩ := List.lookup_eq_some_iff.1 h
  simp

theorem exists_line_of_parseLines {lines : List Bytes} {entries : List (Bytes × Value)}
    (h : parseLines lines = some entries) :
    ∀ entry ∈ entries, ∃ line ∈ lines, parseLine line = some (some entry) := by
  induction lines generalizing entries with
  | nil =>
    cases h
    exact fun entry hentry => by cases hentry
  | cons line lines ih =>
    simp only [parseLines, Option.bind_eq_bind, Option.bind_eq_some_iff, Option.pure_def,
      Option.some.injEq] at h
    obtain ⟨first, hfirst, rest, hrest, rfl⟩ := h
    intro entry hentry
    rcases List.mem_append.1 hentry with hentry | hentry
    · refine ⟨line, List.mem_cons_self .., ?_⟩
      rw [hfirst, Option.mem_toList.1 hentry]
    · obtain ⟨line', hmem, hline'⟩ := ih hrest entry hentry
      exact ⟨line', List.mem_cons_of_mem _ hmem, hline'⟩

/-- An integer that was read stands on a line. -/
theorem exists_line_of_integer {lines : List Bytes} {entries : List (Bytes × Value)}
    (hentries : parseLines lines = some entries) {key : Bytes} {value : Value} {n : UInt64}
    (hlookup : entries.lookup key = some value) (hvalue : asInteger value = some n) :
    n.toNat < 2 ^ 63 ∧ ∃ line ∈ lines, Assigns line key (Decimal.digits n.toNat) := by
  cases value with
  | text content => cases hvalue
  | integer m =>
    obtain ⟨line, hline, hparse⟩ := exists_line_of_parseLines hentries _ (mem_of_lookup hlookup)
    obtain ⟨literal, blank₁, blank₂, blank₃, blank₄, hliteral, h₁, h₂, h₃, h₄, heq⟩ :=
      exists_of_parseLine hparse
    obtain ⟨rfl, hlt⟩ := eq_of_parseValue_integer hliteral
    have hn : n.toNat = m := by
      rw [← Option.some.inj hvalue, UInt64.toNat_ofNat',
        Nat.mod_eq_of_lt (hlt.trans (by decide))]
    rw [hn]
    refine ⟨hlt, line, hline, ?_, blank₁, blank₂, blank₃, blank₄, h₁, h₂, h₃, h₄, heq⟩
    exact fun b hb => isWord_of_isDigit (Decimal.isDigit_of_mem_digits b hb)

/-- A checkpoint that was read is a number on a line that assigns it. -/
theorem exists_line_of_parse {text : Bytes} {database : Database}
    (h : parse text = some database) (relay : Relay) :
    ∃ line ∈ text.splitOn newline,
      Assigns line (Database.Field.checked relay).key
        (Decimal.digits (database.checked relay).toNat) := by
  obtain ⟨entries, hentries, hdatabase⟩ := Option.bind_eq_some_iff.1 h
  obtain ⟨value, hlookup, hvalue⟩ :=
    Option.bind_eq_some_iff.1 ((parseDatabase_eq_some hdatabase).1 relay)
  exact (exists_line_of_integer hentries hlookup hvalue).2

theorem parse_representable {text : Bytes} {database : Database}
    (h : parse text = some database) : database.Representable := by
  obtain ⟨entries, hentries, hdatabase⟩ := Option.bind_eq_some_iff.1 h
  obtain ⟨hchecked, hhome, hforeign⟩ := parseDatabase_eq_some hdatabase
  have hoptional : ∀ (field : Database.Field) (n : UInt64),
      optional entries asInteger field = some (some n) → n.toNat < 2 ^ 63 := by
    intro field n hfield
    unfold optional at hfield
    split at hfield
    · cases hfield
    · rename_i value hlookup
      obtain ⟨m, hvalue, heq⟩ := Option.map_eq_some_iff.1 hfield
      cases heq
      exact (exists_line_of_integer hentries hlookup hvalue).1
  intro n hn
  rw [Database.blockNumbers, List.mem_append, List.mem_append, Option.mem_toList,
    Option.mem_toList, List.mem_map] at hn
  rcases hn with (hn | hn) | ⟨relay, -, rfl⟩
  · exact hoptional .homeDeploy n (hn ▸ hhome)
  · exact hoptional .foreignDeploy n (hn ▸ hforeign)
  · obtain ⟨value, hlookup, hvalue⟩ := Option.bind_eq_some_iff.1 (hchecked relay)
    exact (exists_line_of_integer hentries hlookup hvalue).1

/-- The parser has the laws of a `Toml`. -/
def simple : Toml where
  fromStr := parse
  fromStr_display := parse_display
  fromStr_representable := fun _ _ h => parse_representable h
  fromStr_plain := by
    intro text database _ h relay
    obtain ⟨line, hline, hassigns⟩ := exists_line_of_parse h relay
    exact ⟨line, hline, _, hassigns, fun _ => Decimal.value_digits _⟩

end Toml

end PoaBridge
