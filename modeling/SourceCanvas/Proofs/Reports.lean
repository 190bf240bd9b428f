import SourceCanvas.Proofs.TextPlaces
import SourceCanvas.Proofs.Tidying

/-!
# Reports of a compiler

An entry of a report is read back from the way it is printed (`Printed.reportPlace?_text`,
`reportLine?_append`), and whatever is read as an entry is printed that way
(`Printed.exists_of_reportPlace?`). Each line adds the offset of its entry to those found so far
(`addReportLine_of_readable`), and so a report has the offsets of its entries
(`offsets_ofReport`). A line that tells of an offset of the text has this offset, and all offsets
lie in the text but for entries that tell of column zero of the first line (`located_ofReport`).
-/

namespace SourceCanvas.Diagnostic

open SourceCanvas.Text (IsNumeral decimalsValue isBlank isDecimal trim trimEnd wholeDigitLimit)

/-! ## Printed entries -/

section Digits

variable {text rest digits : List Char} {mark : String}

theorem digitsBefore?_append (numeral : IsNumeral digits)
    (solid : mark.toList.head?.all isDecimal = false) (rest : List Char) :
    digitsBefore? mark (digits ++ (mark.toList ++ rest)) = some (digits, rest) := by
  obtain ⟨filled, decimal⟩ := numeral
  have all : ∀ c ∈ digits, isDecimal c = true := List.all_eq_true.mp decimal
  have taken : (digits ++ (mark.toList ++ rest)).takeWhile isDecimal = digits ∧
      (digits ++ (mark.toList ++ rest)).dropWhile isDecimal = mark.toList ++ rest := by
    rw [List.takeWhile_append_of_pos all, List.dropWhile_append_of_pos all]
    cases letters : mark.toList with
    | nil =>
      rw [letters] at solid
      cases solid
    | cons first others =>
      have stop : ¬ isDecimal first = true := by
        rw [letters] at solid
        simpa using solid
      rw [List.cons_append, List.takeWhile_cons_of_neg stop, List.dropWhile_cons_of_neg stop,
        List.append_nil]
      exact ⟨rfl, rfl⟩
  have begins : mark.toList.isPrefixOf (mark.toList ++ rest) = true :=
    List.isPrefixOf_iff_prefix.mpr (List.prefix_append ..)
  rw [digitsBefore?, taken.1, taken.2, List.isEmpty_eq_false_iff.mpr filled, begins,
    Bool.not_false, Bool.and_true, if_pos rfl, ← String.length_toList, List.drop_left]

theorem of_digitsBefore? (found : digitsBefore? mark text = some (digits, rest)) :
    IsNumeral digits ∧ text = digits ++ (mark.toList ++ rest) := by
  rw [digitsBefore?] at found
  split at found
  · next both =>
    cases found
    rw [Bool.and_eq_true] at both
    obtain ⟨filled, begins⟩ := both
    obtain ⟨more, same⟩ := List.isPrefixOf_iff_prefix.mp begins
    refine ⟨⟨by simpa using filled, List.all_takeWhile⟩, ?_⟩
    rw [← same, ← String.length_toList, List.drop_left, same, List.takeWhile_append_dropWhile]
  · cases found

end Digits

section Words

variable {word : String} {severity : Severity} {rest : List Char}

theorem drop_word (word : String) (rest : List Char) :
    (word.toList ++ [' ', 'T', 'S'] ++ rest).drop (word.length + 3) = rest := by
  rw [← String.length_toList]
  exact List.drop_left' (by rw [List.length_append]; rfl)

theorem find?_word (known : (word, severity) ∈ severityWords)
    (rest : List Char) : (severityWords.find? fun (other, _) =>
      (other.toList ++ [' ', 'T', 'S']).isPrefixOf (word.toList ++ [' ', 'T', 'S'] ++ rest)) =
        some (word, severity) := by
  simp only [severityWords, List.mem_cons, List.not_mem_nil, or_false, Prod.mk.injEq] at known
  rcases known with ⟨rfl, rfl⟩ | ⟨rfl, rfl⟩ | ⟨rfl, rfl⟩
  · rfl
  · rfl
  · rfl

theorem of_find?_word (found : (severityWords.find? fun (other, _) =>
      (other.toList ++ [' ', 'T', 'S']).isPrefixOf rest) = some (word, severity)) :
    (word, severity) ∈ severityWords ∧
      rest = word.toList ++ [' ', 'T', 'S'] ++ rest.drop (word.length + 3) := by
  have begins := List.find?_some found
  obtain ⟨more, rfl⟩ := List.isPrefixOf_iff_prefix.mp begins
  exact ⟨List.mem_of_find?_eq_some found, by rw [drop_word]⟩

end Words

/-- What a report says at a place of a text, in the parts in which it is printed. -/
structure Printed where
  line : List Char
  column : List Char
  word : String
  severity : Severity
  code : List Char
  message : List Char
  line_numeral : IsNumeral line
  column_numeral : IsNumeral column
  code_numeral : IsNumeral code
  known : (word, severity) ∈ severityWords

namespace Printed

/-- What is printed between the first parenthesis and the message. -/
def header (printed : Printed) : List Char :=
  printed.line ++ (",".toList ++ (printed.column ++ ("): ".toList ++
    (printed.word.toList ++ [' ', 'T', 'S'] ++ (printed.code ++ ": ".toList)))))

/-- What is printed, from the first parenthesis on. -/
def text (printed : Printed) : List Char := '(' :: (printed.header ++ printed.message)

/-- The entry that is printed. -/
def entry (printed : Printed) : ReportLine where
  line := printed.line
  column := printed.column
  severity := printed.severity
  code := "TS" ++ String.ofList printed.code
  message := String.ofList printed.message

theorem reportPlace?_text (printed : Printed) : reportPlace? printed.text = some printed.entry := by
  rw [text, header, reportPlace?]
  simp only [List.append_assoc _ _ printed.message]
  rw [digitsBefore?_append printed.line_numeral (by decide), Option.bind_eq_bind, Option.bind_some]
  dsimp only
  rw [digitsBefore?_append printed.column_numeral (by decide), Option.bind_some]
  dsimp only
  rw [find?_word printed.known]
  dsimp only [Option.bind_eq_bind, Option.bind_some]
  rw [drop_word, digitsBefore?_append printed.code_numeral (by decide), Option.bind_some]
  rfl

/-- What is read as an entry is printed as one. -/
theorem exists_of_reportPlace? {text : List Char} {entry : ReportLine}
    (found : reportPlace? text = some entry) :
    ∃ printed : Printed, printed.text = text ∧ printed.entry = entry := by
  unfold reportPlace? at found
  split at found
  · next rest =>
    obtain ⟨⟨line, afterLine⟩, readLine, found⟩ := Option.bind_eq_some_iff.mp found
    obtain ⟨⟨column, afterColumn⟩, readColumn, found⟩ := Option.bind_eq_some_iff.mp found
    obtain ⟨⟨word, severity⟩, readWord, found⟩ := Option.bind_eq_some_iff.mp found
    obtain ⟨⟨code, message⟩, readCode, found⟩ := Option.bind_eq_some_iff.mp found
    cases found
    obtain ⟨lineNumeral, lines⟩ := of_digitsBefore? readLine
    obtain ⟨columnNumeral, columns⟩ := of_digitsBefore? readColumn
    obtain ⟨known, words⟩ := of_find?_word readWord
    obtain ⟨codeNumeral, codes⟩ := of_digitsBefore? readCode
    refine ⟨⟨line, column, word, severity, code, message, lineNumeral, columnNumeral, codeNumeral,
      known⟩, ?_, rfl⟩
    rw [lines, columns, words, codes]
    simp only [text, header, List.append_assoc]
  · cases found

/-- The header has no second opening parenthesis. -/
theorem paren_not_mem_header (printed : Printed) : '(' ∉ printed.header := by
  have digits {digits : List Char} (numeral : IsNumeral digits) : '(' ∉ digits := fun inside =>
    absurd (List.all_eq_true.mp numeral.2 _ inside) (by decide)
  have word : '(' ∉ printed.word.toList := by
    have known := printed.known
    simp only [severityWords, List.mem_cons, List.not_mem_nil, or_false, Prod.mk.injEq] at known
    rcases known with ⟨same, -⟩ | ⟨same, -⟩ | ⟨same, -⟩ <;> rw [same] <;> decide
  simp [header, digits printed.line_numeral, digits printed.column_numeral,
    digits printed.code_numeral, word]

/-- What is printed does not reach into what is printed behind it: it is printed alike where the
text ends before that. -/
theorem exists_of_append {printed other : Printed} {file : List Char} (filled : file ≠ [])
    (same : other.text = file ++ printed.text) : ∃ shorter : Printed, shorter.text = file := by
  cases file with
  | nil => exact (filled rfl).elim
  | cons c file =>
    rw [text, List.cons_append] at same
    obtain ⟨rfl, behind⟩ := List.cons.inj same
    rcases List.append_eq_append_iff.mp behind with ⟨more, parts, -⟩ | ⟨more, parts, inside⟩
    · exact ⟨{ other with message := more }, by rw [parts]; rfl⟩
    · cases more with
      | nil =>
        refine ⟨{ other with message := [] }, ?_⟩
        rw [List.append_nil] at parts
        rw [text, ← parts, List.append_nil]
        rfl
      | cons d more =>
        -- the parenthesis of the second text would stand in the header of the first one
        obtain ⟨rfl, -⟩ := List.cons.inj inside
        refine absurd ?_ other.paren_not_mem_header
        rw [parts]
        exact List.mem_append_right _ (List.mem_cons_self ..)

end Printed

/-! ## Lines -/

section Lines

variable {text file margin : List Char}

theorem reportLine?_cons (c : Char) (rest : List Char) :
    reportLine? (c :: rest) = (reportPlace? rest).or (reportLine? rest) := by
  rw [reportLine?]
  cases reportPlace? rest <;> rfl

/-- A line is no entry if nothing is printed in it behind its first character. -/
theorem reportLine?_eq_none_iff : reportLine? text = none ↔
    ∀ (before : List Char) (printed : Printed), before ≠ [] → text ≠ before ++ printed.text := by
  induction text with
  | nil =>
    refine ⟨fun _ before printed filled same => ?_, fun _ => rfl⟩
    exact filled (List.append_eq_nil_iff.mp same.symm).1
  | cons c rest ih =>
    rw [reportLine?_cons, Option.or_eq_none_iff, ih]
    constructor
    · rintro ⟨here, later⟩ before printed filled same
      cases before with
      | nil => exact filled rfl
      | cons d before =>
        have behind := (List.cons.inj same).2
        by_cases ends : before = []
        · rw [behind, ends] at here
          exact absurd here (by simp [printed.reportPlace?_text])
        · exact later before printed ends behind
    · refine fun nothing => ⟨?_, fun before printed filled same => ?_⟩
      · rw [Option.eq_none_iff_forall_ne_some]
        intro entry found
        obtain ⟨printed, same, -⟩ := Printed.exists_of_reportPlace? found
        exact nothing [c] printed (List.cons_ne_nil c []) (by rw [same]; rfl)
      · exact nothing (c :: before) printed (List.cons_ne_nil c before) (by rw [same]; rfl)

/-- What is printed behind the name of a file is read, unless the name itself is an entry. -/
theorem reportLine?_append (filled : file ≠ []) (own : reportLine? file = none)
    (printed : Printed) : reportLine? (file ++ printed.text) = some printed.entry := by
  induction file with
  | nil => exact (filled rfl).elim
  | cons c file ih =>
    rw [reportLine?_cons, Option.or_eq_none_iff] at own
    rw [List.cons_append, reportLine?_cons]
    cases file with
    | nil => rw [List.nil_append, printed.reportPlace?_text, Option.some_or]
    | cons d file =>
      -- an entry that begins inside the name ends inside it, and would make the name an entry
      have none : reportPlace? (d :: file ++ printed.text) = none := by
        rw [Option.eq_none_iff_forall_ne_some]
        intro entry found
        obtain ⟨other, same, -⟩ := Printed.exists_of_reportPlace? found
        obtain ⟨shorter, same⟩ := Printed.exists_of_append (List.cons_ne_nil d file) same
        rw [← same, shorter.reportPlace?_text] at own
        cases own.1
      rw [none, Option.none_or]
      exact ih (List.cons_ne_nil d file) own.2

theorem numerals_of_reportLine? {entry : ReportLine} (found : reportLine? text = some entry) :
    IsNumeral entry.line ∧ IsNumeral entry.column := by
  induction text with
  | nil => cases found
  | cons c rest ih =>
    rw [reportLine?_cons, Option.or_eq_some_iff] at found
    rcases found with found | ⟨-, found⟩
    · obtain ⟨printed, -, rfl⟩ := Printed.exists_of_reportPlace? found
      exact ⟨printed.line_numeral, printed.column_numeral⟩
    · exact ih found

/-- What is trimmed off a line leaves what is printed, but for blanks at the end of the message. -/
theorem trim_printed (blank : margin.all isBlank = true) (named : file.head?.all isBlank = false)
    (printed : Printed) (said : trimEnd printed.message ≠ []) :
    trim (margin ++ (file ++ printed.text)) =
      file ++ ({ printed with message := trimEnd printed.message } : Printed).text := by
  have start : Text.trimStart (margin ++ (file ++ printed.text)) = file ++ printed.text := by
    rw [Text.trimStart, List.dropWhile_append_of_pos (List.all_eq_true.mp blank)]
    cases file with
    | nil => cases named
    | cons c file => exact List.dropWhile_cons_of_neg (by simpa using named)
  have parts (message : List Char) :
      file ++ ({ printed with message := message } : Printed).text =
        (file ++ '(' :: printed.header) ++ message := by
    rw [Printed.text, List.append_assoc]
    rfl
  rw [trim, start, parts, Text.trimEnd_append_of_filled said, ← parts]

end Lines

/-! ## Diagnostics of lines -/

/-- What a line of a report is read as. -/
def entryOf (line : List Char) : Option ReportLine := reportLine? (trim line)

/-- The entries of a report. -/
def entries (report : String) : List ReportLine :=
  (Text.reportLines report.toList).filterMap entryOf

/-- The line and the column of an entry have no more digits than a whole number can have. -/
def Readable (entry : ReportLine) : Prop :=
  entry.line.length ≤ wholeDigitLimit ∧ entry.column.length ≤ wholeDigitLimit

/-- The offset in a text that an entry tells. -/
def offsetOf (text : List Char) (entry : ReportLine) : Int :=
  placeOffset text (decimalsValue entry.line) (decimalsValue entry.column)

/-- An entry tells of column zero of the first line. -/
def BeforeText (text : List Char) (entry : ReportLine) : Prop :=
  decimalsValue entry.column = 0 ∧ (decimalsValue entry.line ≤ 1 ∨ '\n' ∉ text)

section Runs

variable {text line : List Char} {lines : List (List Char)} {entry : ReportLine}
  {found : List Diagnostic}

theorem offsetOf_nonneg_iff : 0 ≤ offsetOf text entry ↔ ¬ BeforeText text entry := by
  rw [offsetOf, placeOffset_nonneg_iff, BeforeText, not_and, not_or, not_le, not_not]

theorem ofReportLine_of_readable (text : List Char)
    (numerals : IsNumeral entry.line ∧ IsNumeral entry.column)
    (readable : Readable entry) : ∃ diagnostic, ofReportLine text entry = .ok diagnostic ∧
      diagnostic.offset = offsetOf text entry := by
  rw [ofReportLine, Text.readWhole?_of_isNumeral numerals.1,
    Text.readWhole?_of_isNumeral numerals.2, if_pos readable.1, if_pos readable.2]
  exact ⟨_, rfl, rfl⟩

theorem ofReportLine_of_not_readable (numerals : IsNumeral entry.line ∧ IsNumeral entry.column)
    (unreadable : ¬ Readable entry) : ofReportLine text entry = .error (.shape .indexDigits) := by
  rw [ofReportLine, Text.readWhole?_of_isNumeral numerals.1,
    Text.readWhole?_of_isNumeral numerals.2]
  by_cases line : entry.line.length ≤ wholeDigitLimit
  · rw [if_pos line, if_neg fun column => unreadable ⟨line, column⟩]
  · rw [if_neg line]

theorem offsets_continueLast (found : List Diagnostic) (line : List Char) :
    (continueLast found line).map (·.offset) = found.map (·.offset) := by
  rw [continueLast]
  cases last : found.getLast? with
  | none => rfl
  | some diagnostic =>
    obtain ⟨others, rfl⟩ := List.getLast?_eq_some_iff.mp last
    simp

/-- A line adds the offset of its entry, if it is one. -/
theorem addReportLine_of_readable (text : List Char) (found : List Diagnostic)
    (readable : ∀ entry ∈ entryOf line, Readable entry) :
    ∃ found', addReportLine text found line = .ok found' ∧ found'.map (·.offset) =
      found.map (·.offset) ++ (entryOf line).toList.map (offsetOf text) := by
  rw [entryOf] at readable ⊢
  rw [addReportLine]
  cases read : reportLine? (trim line) with
  | none =>
    refine ⟨_, rfl, ?_⟩
    rw [Option.toList_none, List.map_nil, List.append_nil]
    split
    · exact offsets_continueLast found line
    · rfl
  | some entry =>
    obtain ⟨diagnostic, told, offset⟩ :=
      ofReportLine_of_readable text (numerals_of_reportLine? read) (readable entry read)
    refine ⟨found ++ [diagnostic], by simp only [told]; rfl, ?_⟩
    rw [List.map_append, List.map_singleton, offset]
    rfl

theorem addReportLine_of_not_readable (read : entryOf line = some entry)
    (unreadable : ¬ Readable entry) :
    addReportLine text found line = .error (.shape .indexDigits) := by
  rw [entryOf] at read
  rw [addReportLine, read]
  simp only [ofReportLine_of_not_readable (numerals_of_reportLine? read) unreadable]
  rfl

/-- A run adds the offsets of all entries. -/
theorem foldlM_of_readable (text : List Char) (found : List Diagnostic)
    (readable : ∀ entry ∈ lines.filterMap entryOf, Readable entry) :
    ∃ found', lines.foldlM (addReportLine text) found = .ok found' ∧ found'.map (·.offset) =
      found.map (·.offset) ++ (lines.filterMap entryOf).map (offsetOf text) := by
  induction lines generalizing found with
  | nil => exact ⟨found, rfl, by simp⟩
  | cons line lines ih =>
    have here : ∀ entry ∈ entryOf line, Readable entry := fun entry read =>
      readable entry (List.mem_filterMap.mpr ⟨line, List.mem_cons_self .., read⟩)
    have later : ∀ entry ∈ lines.filterMap entryOf, Readable entry := fun entry read => by
      obtain ⟨other, member, read⟩ := List.mem_filterMap.mp read
      exact readable entry (List.mem_filterMap.mpr ⟨other, List.mem_cons_of_mem _ member, read⟩)
    obtain ⟨next, step, offsets⟩ := addReportLine_of_readable text found here
    obtain ⟨found', run, offsets'⟩ := ih next later
    refine ⟨found', by rw [List.foldlM_cons, step]; exact run, ?_⟩
    rw [offsets', offsets, List.append_assoc, ← List.map_append]
    cases read : entryOf line <;> simp [read]

/-- A run fails if there is an entry that cannot be read. -/
theorem foldlM_of_not_readable (member : entry ∈ lines.filterMap entryOf)
    (unreadable : ¬ Readable entry) :
    lines.foldlM (addReportLine text) found = .error (.shape .indexDigits) := by
  induction lines generalizing found with
  | nil => cases member
  | cons line lines ih =>
    rw [List.foldlM_cons]
    by_cases here : ∀ entry ∈ entryOf line, Readable entry
    · obtain ⟨next, step, -⟩ := addReportLine_of_readable text found here
      obtain ⟨other, inside, read⟩ := List.mem_filterMap.mp member
      rcases List.mem_cons.mp inside with rfl | later
      · exact absurd (here entry read) unreadable
      · rw [step]
        exact ih (List.mem_filterMap.mpr ⟨other, later, read⟩)
    · -- the run ends at this line
      simp only [not_forall] at here
      obtain ⟨first, read, broken⟩ := here
      rw [addReportLine_of_not_readable read broken]
      rfl

end Runs

/-! ## Reports -/

/-- A report is read if all of its entries can be. -/
theorem exists_ofReport_iff (report text : String) :
    (∃ found, ofReport report text = .ok found) ↔ ∀ entry ∈ entries report, Readable entry := by
  constructor
  · rintro ⟨found, run⟩ entry member
    by_contra unreadable
    rw [ofReport, foldlM_of_not_readable member unreadable] at run
    cases run
  · intro readable
    obtain ⟨found, run, -⟩ := foldlM_of_readable text.toList [] readable
    exact ⟨found, run⟩

/-- A report has one diagnostic for each entry, in order. -/
theorem offsets_ofReport {report text : String} {found : List Diagnostic}
    (run : ofReport report text = .ok found) :
    found.map (·.offset) = (entries report).map (offsetOf text.toList) := by
  have readable := (exists_ofReport_iff report text).mp ⟨found, run⟩
  obtain ⟨found', run', offsets⟩ :=
    foldlM_of_readable text.toList [] readable
  cases run.symm.trans run'
  exact offsets

/-- A line of a report tells of an offset of a text: behind a margin it names a file, whose name is
no entry itself, and prints the line and the column of the offset, with something to say. -/
inductive Tells (text : List Char) (offset : Nat) : List Char → Prop
  | printed (margin file : List Char) (printed : Printed) (blank : margin.all isBlank = true)
    (named : file.head?.all isBlank = false)
    (own : ∀ (before : List Char) (other : Printed), before ≠ [] → file ≠ before ++ other.text)
    (said : ∃ c ∈ printed.message, isBlank c = false)
    (line : decimalsValue printed.line = Text.lineOf text offset)
    (column : decimalsValue printed.column = Text.columnOf text offset) :
    Tells text offset (margin ++ (file ++ printed.text))

/-- What tells of an offset is an entry with this offset. -/
theorem Tells.exists_entry {text line : List Char} {offset : Nat} (tells : Tells text offset line)
    (inside : offset ≤ text.length) :
    ∃ entry, entryOf line = some entry ∧ offsetOf text entry = offset := by
  cases tells with
  | printed margin file printed blank named own said lines columns =>
    have filled : file ≠ [] := fun empty => by
      rw [empty] at named
      cases named
    have kept : trimEnd printed.message ≠ [] := fun empty => by
      obtain ⟨c, member, solid⟩ := said
      obtain ⟨blanks, parts, all⟩ := Text.trimEnd_append printed.message
      rw [parts, empty, List.nil_append] at member
      rw [all c member] at solid
      cases solid
    -- blanks at the end of the message go with those around the line
    let trimmed : Printed := { printed with message := trimEnd printed.message }
    refine ⟨trimmed.entry, ?_, ?_⟩
    · rw [entryOf, trim_printed blank named printed kept]
      exact reportLine?_append filled (reportLine?_eq_none_iff.mpr own) trimmed
    · rw [offsetOf, Printed.entry, lines, columns]
      exact placeOffset_of_offset inside

/-- **The offsets of a report**: it is read if the lines and columns of its entries are not too
long, and has then a diagnostic for each entry. None of these lies behind the text, and all lie in
the text if no entry tells of column zero of the first line. A line that tells of an offset of the
text has this offset in its place among the diagnostics, whatever the other lines are. -/
theorem located_ofReport (report text : String) :
    ((∃ found, ofReport report text = .ok found) ↔ ∀ entry ∈ entries report, Readable entry) ∧
    ∀ found, ofReport report text = .ok found →
      found.length = (entries report).length ∧
      (∀ diagnostic ∈ found, diagnostic.offset ≤ text.toList.length) ∧
      ((∀ diagnostic ∈ found, 0 ≤ diagnostic.offset) ↔
        ∀ entry ∈ entries report, ¬ BeforeText text.toList entry) ∧
      ∀ (before after : List (List Char)) (line : List Char) (offset : Nat),
        Text.reportLines report.toList = before ++ line :: after →
        offset ≤ text.toList.length → Tells text.toList offset line →
        (found[(before.filterMap entryOf).length]?).map (·.offset) = some (offset : Int) := by
  refine ⟨exists_ofReport_iff report text, fun found run => ?_⟩
  have offsets := offsets_ofReport run
  have all (holds : Int → Prop) : (∀ diagnostic ∈ found, holds diagnostic.offset) ↔
      ∀ entry ∈ entries report, holds (offsetOf text.toList entry) := by
    rw [← List.forall_mem_map, offsets, List.forall_mem_map]
  refine ⟨by simpa using congrArg List.length offsets, ?_, ?_, ?_⟩
  · exact (all (· ≤ text.toList.length)).mpr fun entry _ => placeOffset_le _ _ _
  · simpa only [offsetOf_nonneg_iff] using all (0 ≤ ·)
  · intro before after line offset lines inside tells
    obtain ⟨entry, read, place⟩ := tells.exists_entry inside
    have parts : entries report =
        before.filterMap entryOf ++ entry :: after.filterMap entryOf := by
      rw [entries, lines, List.filterMap_append, List.filterMap_cons, read]
    rw [← List.getElem?_map, offsets, parts, List.map_append, List.getElem?_append_right (by simp)]
    simp [place]

/-- What a compiler says of the start of the second line. -/
def secondLine : Printed where
  line := ['2']
  column := ['1']
  word := "warning"
  severity := .warning
  code := ['2']
  message := ['b']
  line_numeral := ⟨by decide, by decide⟩
  column_numeral := ⟨by decide, by decide⟩
  code_numeral := ⟨by decide, by decide⟩
  known := by decide

/-- The second entry of a report has the offset of which its line tells. -/
theorem located_ofReport_secondLine : ∃ found,
    ofReport "f.ts(1,1): error TS1: a\n  more\nf.ts(2,1): warning TS2: b" "x\ny" = .ok found ∧
      found.length = 2 ∧ (found[1]?).map (·.offset) = some 2 := by
  obtain ⟨read, located⟩ :=
    located_ofReport "f.ts(1,1): error TS1: a\n  more\nf.ts(2,1): warning TS2: b" "x\ny"
  obtain ⟨found, run⟩ := read.mpr (by unfold Readable; decide +kernel)
  obtain ⟨length, -, -, places⟩ := located found run
  have tells : Tells "x\ny".toList 2 ("f.ts".toList ++ secondLine.text) :=
    .printed [] "f.ts".toList secondLine rfl (by decide)
      (reportLine?_eq_none_iff.mp (by decide +kernel)) ⟨'b', by decide⟩ (by decide) (by decide)
  refine ⟨found, run, length.trans (by decide +kernel), ?_⟩
  exact places ["f.ts(1,1): error TS1: a".toList, "  more".toList] [] _ 2 (by decide +kernel)
    (by decide) tells

/-- The column zero of the first line lies before the text. -/
theorem not_located_columnZero : ¬ ∀ (report text : String) (found : List Diagnostic),
    ofReport report text = .ok found →
      ∀ diagnostic ∈ found, 0 ≤ diagnostic.offset ∧ diagnostic.offset ≤ text.toList.length := by
  intro always
  have run : ofReport "a.ts(1,0): error TS1: m" "x" =
      .ok [{ offset := -1, message := "m", code := some "TS1" }] := by rfl
  exact absurd (always _ _ _ run _ (List.mem_singleton_self _)).1 (by decide)

end SourceCanvas.Diagnostic
