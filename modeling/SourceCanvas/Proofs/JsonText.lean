import SourceCanvas.Json.Parser
import SourceCanvas.Json.Printer

/-!
# JSON texts

What is written for a string is read back as this string, whatever it holds (`parse?_renderChars`):
an escape of one letter stands for its character, four hexadecimal digits for a unit, and a pair of
units for a character beyond U+FFFF. So are the texts under the names of an object, if the names are
apart (`parse?_renderFields`).
-/

namespace SourceCanvas.Json

variable {fuel : Nat} {rest : List Char}

/-! ## Units -/

/-- The last digits of a number in hexadecimal, a given count of them. -/
def lastDigits : Nat → Nat → List Char
  | 0, _ => []
  | count + 1, n => lastDigits count (n / 16) ++ [Nat.digitChar (n % 16)]

theorem lastDigits_zero (count : Nat) : lastDigits count 0 = List.replicate count '0' := by
  induction count with
  | zero => rfl
  | succ count ih =>
    rw [lastDigits, ih, List.replicate_succ']
    rfl

/-- A number filled with zeros to a count of digits has these digits. -/
theorem padded_toDigits {count n : Nat} (few : (Nat.toDigits 16 n).length ≤ count + 1) :
    List.replicate (count + 1 - (Nat.toDigits 16 n).length) '0' ++ Nat.toDigits 16 n =
      lastDigits (count + 1) n := by
  induction count generalizing n with
  | zero =>
    have digit : n < 16 := by
      simpa using (Nat.length_toDigits_le_iff (by decide) (by decide)).mp few
    rw [Nat.toDigits_of_lt_base digit, lastDigits, Nat.mod_eq_of_lt digit]
    rfl
  | succ count ih =>
    rw [lastDigits]
    by_cases digit : n < 16
    · rw [Nat.toDigits_of_lt_base digit, Nat.div_eq_of_lt digit, Nat.mod_eq_of_lt digit,
        lastDigits_zero]
      rfl
    · have parts : Nat.toDigits 16 n = Nat.toDigits 16 (n / 16) ++ [Nat.digitChar (n % 16)] :=
        Nat.toDigits_of_base_le (by decide) (Nat.le_of_not_lt digit)
      rw [parts, List.length_append, List.length_singleton] at few
      rw [parts, ← ih (Nat.le_of_add_le_add_right few), List.length_append,
        List.length_singleton, Nat.add_sub_add_right, List.append_assoc]

theorem hex4_eq {unit : Nat} (small : unit < 0x10000) : hex4 unit = lastDigits 4 unit :=
  padded_toDigits ((Nat.length_toDigits_le_iff (by decide) (by decide)).mpr small)

theorem hexValue?_digitChar : ∀ digit < 16, hexValue? (Nat.digitChar digit) = some digit := by
  decide

/-- The digits of a unit are read back as this unit. -/
theorem unit?_hex4 {unit : Nat} (small : unit < 0x10000) :
    ∃ a b c d, hex4 unit = [a, b, c, d] ∧ unit? a b c d = some unit := by
  have digits : hex4 unit = lastDigits 4 unit := hex4_eq small
  have digit (n : Nat) : hexValue? (Nat.digitChar (n % 16)) = some (n % 16) :=
    hexValue?_digitChar _ (Nat.mod_lt n (by decide))
  refine ⟨_, _, _, _, digits, ?_⟩
  rw [unit?, digit, digit, digit, digit]
  simp only [Option.bind_eq_bind, Option.bind_some, Option.some.injEq]
  omega

/-! ## Strings -/

/-- A unit that is no half of a pair stands for its character. -/
theorem readString_unit {unit : Nat} (small : unit < 0x10000)
    (single : ¬(0xD800 ≤ unit ∧ unit < 0xDC00)) (fuel : Nat) (rest : List Char) :
    readString (fuel + 1) (unitEscape unit ++ rest) =
      (readString fuel rest).map fun (chars, rest) => (unitChar unit :: chars, rest) := by
  obtain ⟨a, b, c, d, digits, found⟩ := unit?_hex4 small
  have unpaired (low : Nat) : pairChar? unit low = none := by
    rw [pairChar?, if_neg fun both => single ⟨both.1, both.2.1⟩]
  have none {e f g h : Char} : (unit? e f g h).bind (pairChar? unit) = none := by
    cases unit? e f g h with
    | none => rfl
    | some low => exact unpaired low
  rw [unitEscape, digits]
  simp only [List.cons_append, List.nil_append, readString, found, none, Option.bind_eq_bind,
    Option.bind_some]
  split <;> rw [Option.map_eq_bind] <;> rfl

/-- The two units of a pair stand for the character of the pair. -/
theorem readString_pair {high low : Nat} {char : Char} (small : high < 0x10000)
    (small' : low < 0x10000) (pair : pairChar? high low = some char) (fuel : Nat)
    (rest : List Char) :
    readString (fuel + 1) (unitEscape high ++ (unitEscape low ++ rest)) =
      (readString fuel rest).map fun (chars, rest) => (char :: chars, rest) := by
  obtain ⟨a, b, c, d, digits, found⟩ := unit?_hex4 small
  obtain ⟨e, f, g, h, digits', found'⟩ := unit?_hex4 small'
  rw [unitEscape, unitEscape, digits, digits']
  simp only [List.cons_append, List.nil_append, readString, found, found', pair,
    Option.bind_eq_bind, Option.bind_some]
  cases readString fuel rest <;> rfl

theorem readString_plain {c : Char} (quote : c ≠ '"') (solidus : c ≠ '\\') (visible : ¬c < ' ')
    (fuel : Nat) (rest : List Char) : readString (fuel + 1) (c :: rest) =
      (readString fuel rest).map fun (chars, rest) => (c :: chars, rest) := by
  rw [readString.eq_def]
  split
  · next same => cases same
  next _ fuel' same =>
  obtain rfl := Nat.succ.inj same
  split
  · next same' => cases same'
  · next same' => exact absurd (List.cons.inj same').1 quote
  · next same' => exact absurd (List.cons.inj same').1 solidus
  · next same' => exact absurd (List.cons.inj same').1 solidus
  · next same' =>
    obtain ⟨rfl, rfl⟩ := List.cons.inj same'
    rw [if_neg visible, Option.map_eq_bind]
    rfl

/-- An escape of one letter stands for its character. -/
theorem readString_letter {c mark : Char} (escape : escaped? mark = some c) (fuel : Nat)
    (rest : List Char) : readString (fuel + 1) ('\\' :: mark :: rest) =
      (readString fuel rest).map fun (chars, rest) => (c :: chars, rest) := by
  have other : mark ≠ 'u' := by
    rintro rfl
    cases escape
  rw [readString.eq_def]
  split
  · next same => cases same
  next _ fuel' same =>
  obtain rfl := Nat.succ.inj same
  split
  · next same' => cases same'
  · next same' => cases same'
  · next same' => exact absurd (List.cons.inj (List.cons.inj same').2).1 other
  · next same' =>
    obtain ⟨rfl, rfl⟩ := List.cons.inj (List.cons.inj same').2
    rw [escape, Option.map_eq_bind]
    rfl
  · next plain same' =>
    obtain ⟨rfl, rfl⟩ := List.cons.inj same'
    exact (plain _ _ rfl rfl).elim

/-! ## Characters -/

/-- The forms in which a character stands in a string. -/
inductive Spells (c : Char) : List Char → Prop where
  | letter {mark : Char} (escape : escaped? mark = some c) : Spells c ['\\', mark]
  | plain (quote : c ≠ '"') (solidus : c ≠ '\\') (visible : ¬c < ' ') : Spells c [c]
  | unit {unit : Nat} (small : unit < 0x10000) (single : ¬(0xD800 ≤ unit ∧ unit < 0xDC00))
      (same : unitChar unit = c) : Spells c (unitEscape unit)
  | pair {high low : Nat} (small : high < 0x10000) (small' : low < 0x10000)
      (pair : pairChar? high low = some c) : Spells c (unitEscape high ++ unitEscape low)

theorem spells_renderChar (c : Char) : Spells c (renderChar c) := by
  have letter {c' mark : Char} (same : c = c') (escape : escaped? mark = some c') :
      Spells c ['\\', mark] := .letter (same ▸ escape)
  rw [renderChar]
  split
  · next same => exact letter same rfl
  next quote =>
  split
  · next same => exact letter same rfl
  next solidus =>
  split
  · next same => exact letter same rfl
  split
  · next same => exact letter same rfl
  split
  · next same => exact letter same rfl
  split
  · next same => exact letter same rfl
  split
  · next same => exact letter same rfl
  split
  · next visible => exact .plain quote solidus (Char.not_lt.mpr visible.1)
  have valid : c.toNat < 0xD800 ∨ 0xDFFF < c.toNat ∧ c.toNat < 0x110000 := c.valid
  split
  · refine .unit (by omega) (by omega) ?_
    rw [unitChar, if_neg (by omega), Char.ofNat_toNat]
  · refine .pair (by omega) (by omega) ?_
    have whole : 0x10000 + (0xD800 + (c.toNat - 0x10000) / 0x400 - 0xD800) * 0x400 +
        (0xDC00 + (c.toNat - 0x10000) % 0x400 - 0xDC00) = c.toNat := by omega
    rw [pairChar?, if_pos (by omega), whole, Char.ofNat_toNat]

namespace Spells

variable {c : Char} {text : List Char}

/-- Each of these forms is read back as the character. -/
theorem readString (spells : Spells c text) (fuel : Nat) (rest : List Char) :
    Json.readString (fuel + 1) (text ++ rest) =
      (Json.readString fuel rest).map fun (chars, rest) => (c :: chars, rest) := by
  cases spells with
  | letter escape => exact readString_letter escape fuel rest
  | plain quote solidus visible => exact readString_plain quote solidus visible fuel rest
  | unit small single same => rw [readString_unit small single, same]
  | pair small small' pair =>
    rw [List.append_assoc]
    exact readString_pair small small' pair fuel rest

theorem ne_nil (spells : Spells c text) : text ≠ [] := by
  cases spells <;> exact nofun

end Spells

theorem readString_renderChars {text : List Char} (enough : text.length < fuel)
    (rest : List Char) :
    readString fuel (text.flatMap renderChar ++ '"' :: rest) = some (text, rest) := by
  induction text generalizing fuel with
  | nil =>
    obtain ⟨fuel, rfl⟩ := Nat.exists_eq_succ_of_ne_zero (Nat.ne_zero_of_lt enough)
    rfl
  | cons c text ih =>
    obtain ⟨fuel, rfl⟩ := Nat.exists_eq_succ_of_ne_zero (Nat.ne_zero_of_lt enough)
    rw [List.flatMap_cons, List.append_assoc, (spells_renderChar c).readString,
      ih (Nat.lt_of_succ_lt_succ enough)]
    rfl

theorem length_renderChars (text : List Char) : text.length + 2 ≤ (renderChars text).length := by
  have each : text.length ≤ (text.flatMap renderChar).length := by
    induction text with
    | nil => exact Nat.le_refl 0
    | cons c text ih =>
      have first := List.length_pos_iff.mpr (spells_renderChar c).ne_nil
      rw [List.flatMap_cons, List.length_append, List.length_cons]
      omega
  rw [renderChars, List.length_append, List.length_cons, List.length_singleton]
  omega

theorem renderChars_append (text rest : List Char) :
    renderChars text ++ rest = '"' :: (text.flatMap renderChar ++ '"' :: rest) := by
  rw [renderChars, List.append_assoc]
  rfl

theorem readValue_renderChars {text : List Char} (enough : text.length < fuel)
    (rest : List Char) :
    readValue (fuel + 1) (renderChars text ++ rest) = some (.string (.ofList text), rest) := by
  have found := readString_renderChars enough rest
  rw [renderChars_append, readValue.eq_def]
  show (readString fuel _).map _ = _
  rw [found]
  rfl

/-- What is written for a string is read back as this string. -/
theorem parse?_renderChars (text : List Char) :
    parse? (renderChars text) = some (.string (.ofList text)) := by
  have enough := length_renderChars text
  have value : readValue (2 * (renderChars text).length + 2) (renderChars text ++ []) =
      some (.string (.ofList text), []) := readValue_renderChars (by omega) []
  have solid : skipSpace (renderChars text) = renderChars text := rfl
  rw [List.append_nil] at value
  rw [parse?, solid, value]
  rfl

/-! ## What is written -/

/-- A text in one line whose quotes and reverse solidi are parts of escapes. -/
inductive Escaped : List Char → Prop where
  | ended : Escaped []
  | plain {c : Char} {text : List Char} (quote : c ≠ '"') (solidus : c ≠ '\\') (inLine : c ≠ '\n')
      (later : Escaped text) : Escaped (c :: text)
  | escape {c : Char} {text : List Char} (inLine : c ≠ '\n') (later : Escaped text) :
      Escaped ('\\' :: c :: text)

theorem Escaped.append {text text' : List Char} (escaped : Escaped text)
    (escaped' : Escaped text') : Escaped (text ++ text') := by
  induction escaped with
  | ended => exact escaped'
  | plain quote solidus inLine _ ih => exact .plain quote solidus inLine ih
  | escape inLine _ ih => exact .escape inLine ih

theorem Escaped.inLine {text : List Char} (escaped : Escaped text) : '\n' ∉ text := by
  induction escaped with
  | ended => exact List.not_mem_nil
  | plain quote solidus inLine _ ih => simp [Ne.symm inLine, ih]
  | escape inLine _ ih => simp [Ne.symm inLine, ih]

theorem escaped_lastDigits (count n : Nat) : Escaped (lastDigits count n) := by
  have digit : ∀ digit < 16, Nat.digitChar digit ≠ '"' ∧ Nat.digitChar digit ≠ '\\' ∧
      Nat.digitChar digit ≠ '\n' := by decide
  induction count generalizing n with
  | zero => exact .ended
  | succ count ih =>
    obtain ⟨quote, solidus, inLine⟩ := digit (n % 16) (Nat.mod_lt n (by decide))
    exact (ih _).append (.plain quote solidus inLine .ended)

theorem escaped_unitEscape {unit : Nat} (small : unit < 0x10000) : Escaped (unitEscape unit) := by
  rw [unitEscape, hex4_eq small]
  exact .escape (by decide) (escaped_lastDigits 4 unit)

theorem Spells.escaped {c : Char} {text : List Char} (spells : Spells c text) : Escaped text := by
  cases spells with
  | @letter mark escape =>
    have inLine : mark ≠ '\n' := by
      rintro rfl
      cases escape
    exact .escape inLine .ended
  | plain quote solidus visible =>
    have inLine : c ≠ '\n' := by
      rintro rfl
      exact visible (by decide)
    exact .plain quote solidus inLine .ended
  | unit small => exact escaped_unitEscape small
  | pair small small' => exact (escaped_unitEscape small).append (escaped_unitEscape small')

theorem escaped_flatMap (text : List Char) : Escaped (text.flatMap renderChar) := by
  induction text with
  | nil => exact .ended
  | cons c text ih => exact (spells_renderChar c).escaped.append ih

/-! ## Objects -/

/-- The field that holds a text under a name. -/
def textField (entry : String × String) : String × Json := (entry.1, .string entry.2)

/-- What is written for a text under a name. -/
def entryChars (entry : String × String) : List Char :=
  renderChars entry.1.toList ++ ':' :: ' ' :: renderChars entry.2.toList

/-- What is written for texts under names. -/
def entriesChars : List (String × String) → List Char
  | [] => []
  | [entry] => entryChars entry
  | entry :: next :: others => entryChars entry ++ ',' :: ' ' :: entriesChars (next :: others)

theorem toList_renderFields : (entries : List (String × String)) →
    (renderFields (entries.map textField)).toList = entriesChars entries
  | [] => rfl
  | [entry] => by
    simp [renderFields, textField, render, renderString, entriesChars, entryChars]
  | entry :: next :: others => by
    have ih := toList_renderFields (next :: others)
    rw [List.map_cons, textField] at ih
    rw [List.map_cons, List.map_cons, renderFields.eq_def]
    simp [ih, textField, render, renderString, entriesChars, entryChars]

theorem inLine_renderChars (text : List Char) : '\n' ∉ renderChars text := by
  simp [renderChars, -List.mem_flatMap, (escaped_flatMap text).inLine]

theorem inLine_entryChars (entry : String × String) : '\n' ∉ entryChars entry := by
  simp [entryChars, inLine_renderChars]

theorem inLine_entriesChars : (entries : List (String × String)) → '\n' ∉ entriesChars entries
  | [] => List.not_mem_nil
  | [entry] => inLine_entryChars entry
  | entry :: next :: others => by
    rw [entriesChars]
    simp [inLine_entryChars, inLine_entriesChars (next :: others)]

theorem length_entryChars (entry : String × String) :
    entry.1.toList.length + entry.2.toList.length + 6 ≤ (entryChars entry).length := by
  have name := length_renderChars entry.1.toList
  have value := length_renderChars entry.2.toList
  rw [entryChars, List.length_append, List.length_cons, List.length_cons]
  omega

/-- What is written for a text under a name is read back up to what stands behind it. -/
theorem readFields_entryChars {entry : String × String} (enough : (entryChars entry).length ≤ fuel)
    (rest : List Char) :
    readFields fuel (entryChars entry ++ rest) =
      match skipSpace rest with
      | '\x7d' :: rest => some ([textField entry], rest)
      | ',' :: rest =>
        (readFields (fuel - 1) (skipSpace rest)).map fun (fields, rest) =>
          (textField entry :: fields, rest)
      | _ => none := by
  have length := length_entryChars entry
  obtain ⟨fuel, rfl⟩ : ∃ count, fuel = count + 2 := ⟨fuel - 2, by omega⟩
  have name : readString (fuel + 1) (entry.1.toList.flatMap renderChar ++
      '"' :: (':' :: ' ' :: (renderChars entry.2.toList ++ rest))) = some (entry.1.toList, _) :=
    readString_renderChars (by omega) _
  have value : readValue (fuel + 1) (renderChars entry.2.toList ++ rest) =
      some (.string (.ofList entry.2.toList), rest) := readValue_renderChars (by omega) rest
  have solid : skipSpace (' ' :: (renderChars entry.2.toList ++ rest)) =
      renderChars entry.2.toList ++ rest := rfl
  rw [entryChars, List.append_assoc, renderChars_append, readFields.eq_def]
  simp only [List.cons_append, name, Option.bind_eq_bind, Option.bind_some]
  rw [show skipSpace (':' :: ' ' :: (renderChars entry.2.toList ++ rest)) =
    ':' :: ' ' :: (renderChars entry.2.toList ++ rest) from rfl]
  simp only [solid, value, Option.bind_some, String.ofList_toList, Option.map_eq_bind]
  rfl

theorem entriesChars_append {entries : List (String × String)} (filled : entries ≠ [])
    (rest : List Char) : ∃ behind, entriesChars entries ++ rest = '"' :: behind := by
  match entries, filled with
  | [entry], _ => exact ⟨_, rfl⟩
  | entry :: next :: others, _ => exact ⟨_, rfl⟩

/-- What is written for texts under names is read back as these. -/
theorem readFields_entriesChars : {entries : List (String × String)} → entries ≠ [] →
    {fuel : Nat} → (entriesChars entries).length ≤ fuel → (rest : List Char) →
    readFields fuel (entriesChars entries ++ '\x7d' :: rest) =
      some (entries.map textField, rest)
  | [entry], _, _, enough, rest => readFields_entryChars enough ('\x7d' :: rest)
  | entry :: next :: others, _, fuel, enough, rest => by
    rw [entriesChars, List.length_append, List.length_cons, List.length_cons] at enough
    have length := length_entryChars entry
    have within : (entriesChars (next :: others)).length ≤ fuel - 1 := by omega
    have later := readFields_entriesChars (List.cons_ne_nil next others) within rest
    have fits : (entryChars entry).length ≤ fuel := by omega
    have first := readFields_entryChars fits
      (',' :: ' ' :: (entriesChars (next :: others) ++ '\x7d' :: rest))
    rw [entriesChars, List.append_assoc]
    obtain ⟨behind, same⟩ := entriesChars_append (List.cons_ne_nil next others) ('\x7d' :: rest)
    rw [same] at first later
    have parts : skipSpace (',' :: ' ' :: '"' :: behind) = ',' :: ' ' :: '"' :: behind := rfl
    have solid : skipSpace (' ' :: '"' :: behind) = '"' :: behind := rfl
    simp only [parts, solid, later] at first
    rw [List.cons_append, List.cons_append, same]
    exact first

/-- What is written for texts under names that are apart is read back as these. -/
theorem parse?_entriesChars {entries : List (String × String)}
    (apart : (entries.map Prod.fst).Nodup) :
    parse? ('\x7b' :: (entriesChars entries ++ ['\x7d'])) =
      some (.object (entries.map textField)) := by
  by_cases filled : entries = []
  · rw [filled]
    rfl
  have enough : (entriesChars entries).length ≤
      2 * (entriesChars entries ++ ['\x7d']).length + 3 := by
    rw [List.length_append]
    omega
  have fields := readFields_entriesChars filled enough []
  have names : Catalog.names (entries.map textField) = entries.map Prod.fst := by
    rw [Catalog.names, List.map_map]
    rfl
  rw [← names] at apart
  obtain ⟨behind, same⟩ := entriesChars_append filled ['\x7d']
  rw [same] at fields ⊢
  have value : readValue (2 * ('\x7b' :: '"' :: behind).length + 2) ('\x7b' :: '"' :: behind) =
      some (.object (entries.map textField), []) := by
    rw [readValue.eq_def]
    show (readFields (2 * ('"' :: behind).length + 3) ('"' :: behind)).bind _ = _
    rw [fields]
    exact congrArg (fun fields => some (object fields, [])) (Catalog.ofList_of_nodup apart)
  have solid : skipSpace ('\x7b' :: '"' :: behind) = '\x7b' :: '"' :: behind := rfl
  rw [parse?, solid, value]
  rfl

end SourceCanvas.Json
