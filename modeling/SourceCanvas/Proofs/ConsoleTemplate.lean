import SourceCanvas.Outline.Template
import SourceCanvas.Program.Block
import SourceCanvas.Proofs.Chunks
import SourceCanvas.Proofs.RequestTemplate

/-!
# Values shown on the console

The text that shows a value on the console is cut again where the value was put in, whatever the
value is (`Template.console?_shown`): a longer value would leave too little text behind it to be
repeated there.
-/

namespace SourceCanvas

open Text (trim isBlank)

namespace Template

/-- The method that shows a value under a label. -/
def method (label : String) : String := if consoleMethods.contains label then label else "log"

/-- The text that shows a value under a label. -/
def shown (label value : String) : String :=
  "(() => \x7b console." ++ method label ++ "(" ++ value ++ "); return " ++ value ++ "; \x7d)()"

theorem expression_console {label value : String} (filled : value ≠ "") :
    ConsoleAttributes.expression { value := some value, label } = shown label value := by
  unfold ConsoleAttributes.expression
  rw [Text.given?_some filled]
  rfl

theorem mem_method (label : String) : method label ∈ consoleMethods := by
  rw [method]
  split
  · next member => simpa using member
  · decide

/-- A value is shown alike under a label and under the method for it. -/
theorem shown_method (label value : String) : shown (method label) value = shown label value := by
  have known : method (method label) = method label :=
    if_pos (List.contains_iff_mem.mpr (mem_method label))
  unfold shown
  rw [known]

variable {literal : String} {text rest value : List Char}

theorem length_le_of_spaced? (found : spaced? literal text = some rest) :
    literal.length + rest.length ≤ text.length := by
  obtain ⟨blanks, rfl, -⟩ := eq_of_spaced? found
  rw [List.length_append, List.length_append, String.length_toList]
  exact Nat.le_add_left _ _

/-- The text that repeats a value is longer than that by the marks around it. -/
theorem length_le_of_repeats (repeated : repeats value text = true) :
    value.length + 6 ≤ text.length := by
  simp only [repeats, List.any_eq_true, List.mem_range, Bool.and_eq_true, beq_iff_eq] at repeated
  obtain ⟨count, fewer, starts, closes⟩ := repeated
  have blanks := (List.takeWhile_prefix (l := text) isBlank).length_le
  have again := (List.isPrefixOf_iff_prefix.mp starts).length_le
  have marks : 4 ≤ _ := length_le_of_spaced? closes
  simp only [List.length_append, List.length_cons, List.length_nil, List.length_drop] at again marks
  omega

/-- The text behind a value is longer than that by the marks between and behind them. -/
theorem length_le_of_closesConsole (closes : closesConsole value text = true) :
    value.length + 14 ≤ text.length := by
  rw [closesConsole] at closes
  split at closes
  · next rest found =>
    obtain ⟨behind, call, word⟩ := Option.bind_eq_some_iff.mp found
    have marks : 6 + rest.length ≤ behind.length := length_le_of_spaced? word
    have repeated := length_le_of_repeats closes
    rw [eq_of_after? call, List.length_append]
    have two : ");".toList.length = 2 := rfl
    omega
  · cases closes

/-- The greatest number below a bound with a property is found first from above. -/
theorem find?_reverse_range {p : Nat → Bool} {count number : Nat} (below : number < count)
    (holds : p number = true) (above : ∀ greater, number < greater → p greater = false) :
    (List.range count).reverse.find? p = some number := by
  induction count with
  | zero => cases below
  | succ count ih =>
    rw [List.range_succ, List.reverse_append, List.reverse_singleton, List.singleton_append,
      List.find?_cons]
    rcases Nat.lt_succ_iff_lt_or_eq.mp below with lower | rfl
    · rw [above count lower]
      exact ih lower
    · rw [holds]

/-- What stands behind a value up to the end of the template. -/
def ending (value : List Char) : List Char := "); return ".toList ++ value ++ "; \x7d)()".toList

/-- The template ends behind a value that is repeated in it. -/
theorem closesConsole_ending (value : List Char) : closesConsole value (ending value) = true := by
  have parts : ending value = ");".toList ++ (' ' :: ("return".toList ++
      (' ' :: (value ++ "; \x7d)()".toList)))) := by
    unfold ending
    simp
  have word : spaced? "return"
      (' ' :: ("return".toList ++ (' ' :: (value ++ "; \x7d)()".toList)))) =
      some (' ' :: (value ++ "; \x7d)()".toList)) := after?_append "return" _
  have repeated : repeats value (' ' :: (value ++ "; \x7d)()".toList)) = true := by
    have closed : spaced? "\x7d)()" " \x7d)()".toList = some [] := by decide
    have filled : 0 < ((' ' :: (value ++ "; \x7d)()".toList)).takeWhile isBlank).length :=
      Nat.succ_pos _
    refine List.any_eq_true.mpr ⟨0, List.mem_range.mpr filled, ?_⟩
    have starts : (value ++ [';']).isPrefixOf (value ++ "; \x7d)()".toList) = true :=
      List.isPrefixOf_iff_prefix.mpr ⟨" \x7d)()".toList, by simp⟩
    have behind : (value ++ "; \x7d)()".toList).drop (value.length + 1) = " \x7d)()".toList := by
      rw [List.drop_append, List.drop_eq_nil_of_le (Nat.le_succ _), Nat.add_sub_cancel_left]
      rfl
    simp only [List.drop_succ_cons, List.drop_zero, starts, behind, closed, Bool.true_and,
      beq_self_eq_true]
  rw [closesConsole, parts, after?_append, Option.bind_some, word]
  exact repeated

/-- No longer value is repeated behind itself up to the end of the template. -/
theorem not_closesConsole {length : Nat} (longer : value.length < length) :
    closesConsole ((value ++ ending value).take length) ((value ++ ending value).drop length) =
      false := by
  refine Bool.eq_false_iff.mpr fun closes => ?_
  have marks := length_le_of_closesConsole closes
  have total : (value ++ ending value).length = 2 * value.length + 16 := by
    unfold ending
    simp
    omega
  rw [List.length_take, List.length_drop, total] at marks
  obtain rfl : length = value.length + 1 := by omega
  rw [List.drop_append, List.drop_eq_nil_of_le (Nat.le_succ _), List.nil_append,
    Nat.add_sub_cancel_left] at closes
  cases closes

/-- **The value that is shown is found**, with the method that shows it. -/
theorem console?_shown (label value : String) :
    console? (shown label value).toList =
      some (method label, String.ofList (trim value.toList)) := by
  have parts : (shown label value).toList = "(()".toList ++ (' ' :: ("=>".toList ++ (' ' ::
      ("\x7b".toList ++ (' ' :: ("console.".toList ++ ((method label).toList ++
        '(' :: (value.toList ++ ending value.toList)))))))) := by
    unfold shown ending
    simp
  generalize value.toList = chars at parts ⊢
  have named : consoleMethods.find? (fun name => (after? (name ++ "(")
      ((method label).toList ++ '(' :: (chars ++ ending chars))).isSome) = some (method label) := by
    have member := mem_method label
    generalize method label = name at member ⊢
    simp only [consoleMethods, List.mem_cons, List.not_mem_nil, or_false] at member
    rcases member with rfl | rfl | rfl | rfl | rfl <;> rfl
  have called : after? (method label ++ "(")
      ((method label).toList ++ '(' :: (chars ++ ending chars)) = some (chars ++ ending chars) := by
    have whole := after?_append (method label ++ "(") (chars ++ ending chars)
    simpa using whole
  have length : (List.range ((chars ++ ending chars).length + 1)).reverse.find? (fun length =>
      closesConsole ((chars ++ ending chars).take length) ((chars ++ ending chars).drop length)) =
        some chars.length := by
    refine find?_reverse_range ?_ ?_ fun greater longer => not_closesConsole longer
    · rw [List.length_append]
      omega
    · rw [List.take_left, List.drop_left]
      exact closesConsole_ending chars
  have mark : spaced? "=>" (' ' :: ("=>".toList ++ (' ' :: ("\x7b".toList ++ (' ' ::
      ("console.".toList ++ ((method label).toList ++ '(' :: (chars ++ ending chars)))))))) =
        some _ := after?_append "=>" _
  have brace : spaced? "\x7b" (' ' :: ("\x7b".toList ++ (' ' ::
      ("console.".toList ++ ((method label).toList ++ '(' :: (chars ++ ending chars)))))) =
        some _ := after?_append "\x7b" _
  have target : spaced? "console." (' ' ::
      ("console.".toList ++ ((method label).toList ++ '(' :: (chars ++ ending chars)))) =
        some _ := after?_append "console." _
  rw [parts, console?, after?_append]
  simp only [Option.bind_eq_bind, Option.bind_some, mark, brace, target, named, called, length,
    List.take_left]

end Template

end SourceCanvas
