import SourceCanvas.Outline.Template
import SourceCanvas.Proofs.JsonText

/-!
# The template of requests

A request is written as a list of lines, each at a level (`requestLines`); what stands before the
lines of a level is a parameter. If that is nothing at the first level and blanks at the second, the
reader of the template finds all that was filled in (`request?_requestLines`): the groups that are
as short as possible end where the writer ended them, because the headers are in one line and the
lines behind the body are the end of a request. A request is only found where its last line has no
margin (`suffix_of_request?`).
-/

namespace SourceCanvas

open SourceCanvas.Text (isBlank join)

namespace Template

variable {literal : String} {blanks text rest : List Char}

theorem after?_append (literal : String) (rest : List Char) :
    after? literal (literal.toList ++ rest) = some rest := by
  rw [after?, if_pos (List.isPrefixOf_iff_prefix.mpr (List.prefix_append ..)),
    ← String.length_toList, List.drop_left]

theorem eq_of_after? (found : after? literal text = some rest) : text = literal.toList ++ rest := by
  rw [after?] at found
  split at found
  · next starts =>
    cases found
    obtain ⟨rest, rfl⟩ := List.isPrefixOf_iff_prefix.mp starts
    rw [← String.length_toList, List.drop_left]
  · cases found

theorem spaced?_append (blank : ∀ c ∈ blanks, isBlank c = true)
    (solid : literal.toList.head?.all isBlank = false) (rest : List Char) :
    spaced? literal (blanks ++ (literal.toList ++ rest)) = some rest := by
  have starts : (literal.toList ++ rest).dropWhile isBlank = literal.toList ++ rest := by
    cases chars : literal.toList with
    | nil => simp [chars] at solid
    | cons c chars =>
      rw [chars] at solid
      exact List.dropWhile_cons_of_neg (Bool.eq_false_iff.mp solid)
  rw [spaced?, List.dropWhile_append_of_pos blank, starts, after?_append]

theorem eq_of_spaced? (found : spaced? literal text = some rest) :
    ∃ blanks, text = blanks ++ (literal.toList ++ rest) ∧ ∀ c ∈ blanks, isBlank c = true := by
  refine ⟨text.takeWhile isBlank, ?_, fun c member => ?_⟩
  · rw [← eq_of_after? found, List.takeWhile_append_dropWhile]
  · exact List.all_eq_true.mp List.all_takeWhile c member

/-! ## The end of a request -/

/-- What is solid in the end of a request. -/
def closingMarks : List Char :=
  ("\x7d);\nif (!response.ok) \x7b\n" ++
    "throw new Error(`Request failed with status $\x7bresponse.status\x7d`);\n" ++
    "\x7d\nreturn response.json();").toList.filter (!isBlank ·)

theorem filter_blanks (blank : ∀ c ∈ blanks, isBlank c = true) :
    blanks.filter (!isBlank ·) = [] := by
  simpa [List.filter_eq_nil_iff] using blank

theorem eq_of_closesRequest (closes : closesRequest text = true) :
    ∃ blanks blanks', (∀ c ∈ blanks, isBlank c = true) ∧ (∀ c ∈ blanks', isBlank c = true) ∧
      text = blanks ++ ("\x7d);\nif (!response.ok) \x7b\n".toList ++ (blanks' ++
        ("throw new Error(`Request failed with status $\x7bresponse.status\x7d`);\n".toList ++
          "\x7d\nreturn response.json();".toList))) := by
  rw [closesRequest, beq_iff_eq] at closes
  obtain ⟨rest, first, second⟩ := Option.bind_eq_some_iff.mp closes
  obtain ⟨blanks, rfl, blank⟩ := eq_of_spaced? first
  obtain ⟨blanks', rfl, blank'⟩ := eq_of_spaced? second
  exact ⟨blanks, blanks', blank, blank', rfl⟩

theorem closesRequest_of_eq {blanks' : List Char} (blank : ∀ c ∈ blanks, isBlank c = true)
    (blank' : ∀ c ∈ blanks', isBlank c = true) :
    closesRequest (blanks ++ ("\x7d);\nif (!response.ok) \x7b\n".toList ++ (blanks' ++
        ("throw new Error(`Request failed with status $\x7bresponse.status\x7d`);\n".toList ++
          "\x7d\nreturn response.json();".toList)))) = true := by
  rw [closesRequest, spaced?_append blank (by decide)]
  show (spaced? _ _ == _) = true
  rw [spaced?_append blank' (by decide)]
  exact beq_self_eq_true _

/-- What is solid in the end of a request is always the same. -/
theorem filter_of_closesRequest (closes : closesRequest text = true) :
    text.filter (!isBlank ·) = closingMarks := by
  obtain ⟨blanks, blanks', blank, blank', rfl⟩ := eq_of_closesRequest closes
  simp only [List.filter_append, filter_blanks blank, filter_blanks blank', List.nil_append]
  decide +kernel

/-- Nothing that ends a request ends another one. -/
theorem not_closesRequest_append (closes : closesRequest rest = true) (text : List Char) :
    closesRequest (text ++ ',' :: '\n' :: rest) = false := by
  refine Bool.eq_false_iff.mpr fun closes' => ?_
  have marks := filter_of_closesRequest closes
  have marks' := filter_of_closesRequest closes'
  rw [List.filter_append, List.filter_cons_of_pos (by decide), List.filter_cons_of_neg (by decide),
    marks] at marks'
  have length := congrArg List.length marks'
  simp at length
  omega

/-- The body of a request is found before its end. -/
theorem requestBody?_append (closes : closesRequest rest = true) (body : List Char) :
    requestBody? (body ++ ',' :: '\n' :: rest) = some body := by
  induction body with
  | nil =>
    have ends : (after? ",\n" (',' :: '\n' :: rest)).any closesRequest = true := by
      rw [show ',' :: '\n' :: rest = ",\n".toList ++ rest by rfl, after?_append]
      exact closes
    rw [List.nil_append, requestBody?, if_pos ends]
  | cons c body ih =>
    have goes : (after? ",\n" (c :: (body ++ ',' :: '\n' :: rest))).any closesRequest = false := by
      cases found : after? ",\n" (c :: (body ++ ',' :: '\n' :: rest)) with
      | none => rfl
      | some behind =>
        have parts : c :: (body ++ ',' :: '\n' :: rest) = ',' :: '\n' :: behind :=
          eq_of_after? found
        cases body with
        | nil => cases parts
        | cons d body =>
          obtain ⟨rfl, rfl⟩ := List.cons.inj (List.cons.inj parts).2
          exact not_closesRequest_append closes body
    rw [List.cons_append, requestBody?, goes, ih]
    rfl

/-! ## Requests -/

/-- A quoted text ends with the first quote that is no part of an escape. -/
theorem quotedLength?_escaped (escaped : Json.Escaped text) (rest : List Char) :
    quotedLength? (text ++ '"' :: rest) = some (text.length + 1) := by
  induction escaped with
  | ended => rfl
  | @plain c text quote solidus inLine later ih =>
    rw [List.cons_append, quotedLength?.eq_def]
    split
    · next same => cases same
    · next same => exact absurd (List.cons.inj same).1 solidus
    · next same => exact absurd (List.cons.inj same).1 solidus
    · next same =>
      obtain ⟨rfl, rfl⟩ := List.cons.inj same
      rw [if_neg quote, ih]
      rfl
  | escape inLine later ih =>
    rw [List.cons_append, List.cons_append, quotedLength?, ih]
    rfl

/-- The headers of a request end with the first line that a brace and a comma end. -/
theorem requestHeaders?_append {headers : List Char} {body : Option (List Char)}
    (inLine : '\n' ∉ headers) (ends : requestEnd? rest = some body) :
    requestHeaders? (headers ++ '\x7d' :: ',' :: '\n' :: rest) =
      some (headers ++ ['\x7d'], body) := by
  induction headers with
  | nil =>
    have found : after? "\x7d,\n" ('\x7d' :: ',' :: '\n' :: rest) = some rest :=
      after?_append "\x7d,\n" rest
    rw [List.nil_append, requestHeaders?, found, Option.bind_some, ends]
    rfl
  | cons c headers ih =>
    rw [List.mem_cons, not_or] at inLine
    have goes : after? "\x7d,\n" (c :: (headers ++ '\x7d' :: ',' :: '\n' :: rest)) = none := by
      cases found : after? "\x7d,\n" (c :: (headers ++ '\x7d' :: ',' :: '\n' :: rest)) with
      | none => rfl
      | some behind =>
        have parts : c :: (headers ++ '\x7d' :: ',' :: '\n' :: rest) =
          '\x7d' :: ',' :: '\n' :: behind := eq_of_after? found
        match headers, inLine.2, parts with
        | [], _, parts => cases parts
        | [d], _, parts => cases parts
        | d :: e :: headers, inLine, parts =>
          obtain ⟨rfl, -⟩ := List.cons.inj (List.cons.inj (List.cons.inj parts).2).2
          simp at inLine
    rw [List.cons_append, requestHeaders?, goes, Option.bind_none, ih inLine.2]
    rfl

/-! ## What is written -/

/-- The line of the body, or the lines if it has several. -/
def bodyLine (body : String) : String := "body: " ++ body ++ ","

/-- The lines behind the options of a request, each with its level. -/
def closingLines : List (Nat × String) :=
  [(1, "\x7d);"), (1, "if (!response.ok) \x7b"),
    (2, "throw new Error(`Request failed with status $\x7bresponse.status\x7d`);"), (1, "\x7d"),
    (1, "return response.json();")]

/-- The lines before the body, each with its level. -/
def headLines (request : ApiAttributes) : List (Nat × String) :=
  [(1, "const response = await fetch(" ++ Json.renderString request.endpoint ++ ", \x7b"),
    (2, "method: " ++ Json.renderString request.method ++ ","),
    (2, "headers: " ++ (Json.object (request.headers.map Json.textField)).render ++ ",")]

/-- The lines of a request, each with its level. -/
def requestLines (request : ApiAttributes) : List (Nat × String) :=
  headLines request ++
    ((request.body.map fun body => (2, bodyLine body)).toList ++ closingLines)

/-- Lines with the margin of its level before each of them. -/
def placed (margin : Nat → List Char) (lines : List (Nat × String)) : List (List Char) :=
  lines.map fun line => margin line.1 ++ line.2.toList

/-- Lines put below each other, each behind the margin of its level. -/
def margined (margin : Nat → List Char) (lines : List (Nat × String)) : List Char :=
  join '\n' (placed margin lines)

variable {margin : Nat → List Char} {request : ApiAttributes}

theorem margined_cons {lines : List (Nat × String)} (filled : lines ≠ [])
    (margin : Nat → List Char) (line : Nat × String) :
    margined margin (line :: lines) =
      margin line.1 ++ (line.2.toList ++ '\n' :: margined margin lines) := by
  obtain ⟨next, others, rfl⟩ := List.exists_cons_of_ne_nil filled
  rw [margined, placed, List.map_cons, List.map_cons, join, List.append_assoc]
  rfl

/-- What is written behind the headers of a request. -/
def endText (margin : Nat → List Char) : Option String → List Char
  | some body => margin 2 ++ ((bodyLine body).toList ++ '\n' :: margined margin closingLines)
  | none => margined margin closingLines

theorem margined_requestLines (margin : Nat → List Char) (request : ApiAttributes) :
    margined margin (requestLines request) =
      margin 1 ++ ("const response = await fetch(".toList ++
        (Json.renderChars request.endpoint.toList ++ (", \x7b\n".toList ++
          (margin 2 ++ ("method: ".toList ++
            (Json.renderChars request.method.toList ++ (",\n".toList ++
              (margin 2 ++ ("headers: ".toList ++ ("\x7b".toList ++
                (Json.entriesChars request.headers ++ '\x7d' :: ',' :: '\n' ::
                  endText margin request.body))))))))))) := by
  have closing : closingLines ≠ [] := List.cons_ne_nil _ _
  have behind : margined margin ((request.body.map fun body => (2, bodyLine body)).toList ++
      closingLines) = endText margin request.body := by
    cases request.body with
    | none => rfl
    | some body =>
      rw [Option.map_some, Option.toList_some, List.singleton_append, margined_cons closing]
      rfl
  rw [requestLines, headLines, List.cons_append, List.cons_append, List.cons_append,
    List.nil_append, margined_cons (List.cons_ne_nil _ _), margined_cons (List.cons_ne_nil _ _),
    margined_cons (List.append_ne_nil_of_right_ne_nil _ closing), behind]
  simp [Json.renderString, Json.render, Json.toList_renderFields]

/-- The lines behind the options end a request. -/
theorem closesRequest_closingLines (outer : margin 1 = [])
    (inner : ∀ c ∈ margin 2, isBlank c = true) :
    closesRequest (margined margin closingLines) = true := by
  have none : ∀ c ∈ [], isBlank c = true := nofun
  have closes := closesRequest_of_eq none inner
  simpa [margined, placed, closingLines, join, outer] using closes

/-- The body is found behind the headers, if there is one. -/
theorem requestEnd?_endText (outer : margin 1 = []) (inner : ∀ c ∈ margin 2, isBlank c = true)
    (body : Option String) : requestEnd? (endText margin body) = some (body.map String.toList) := by
  have closes := closesRequest_closingLines outer inner
  cases body with
  | none =>
    have other : spaced? "body: " (margined margin closingLines) = none := by
      rw [closingLines, margined_cons (List.cons_ne_nil _ _), outer]
      simp [spaced?, after?, show isBlank '\x7d' = false by decide]
    rw [endText, requestEnd?, other, Option.bind_none]
    exact if_pos closes
  | some body =>
    have parts : (bodyLine body).toList ++ '\n' :: margined margin closingLines =
        "body: ".toList ++ (body.toList ++ ',' :: '\n' :: margined margin closingLines) := by
      simp [bodyLine]
    rw [endText, requestEnd?, parts, spaced?_append inner (by decide), Option.bind_some,
      requestBody?_append closes]
    rfl

/-- A method of capital letters needs no escapes. -/
theorem renderChars_capitals {method : List Char} (capital : ∀ c ∈ method, 'A' ≤ c ∧ c ≤ 'Z') :
    Json.renderChars method = '"' :: (method ++ ['"']) := by
  have each (c : Char) (capital : 'A' ≤ c ∧ c ≤ 'Z') : Json.renderChar c = [c] := by
    have other (mark : Char) (low : mark < 'A' ∨ 'Z' < mark) : c ≠ mark := by
      rintro rfl
      exact low.elim (Char.not_lt.mpr capital.1) (Char.not_lt.mpr capital.2)
    have visible : ' ' ≤ c ∧ c ≤ '~' :=
      ⟨Char.le_trans (by decide) capital.1, Char.le_trans capital.2 (by decide)⟩
    rw [Json.renderChar, if_neg (other _ (by decide)), if_neg (other _ (by decide)),
      if_neg (other _ (by decide)), if_neg (other _ (by decide)), if_neg (other _ (by decide)),
      if_neg (other _ (by decide)), if_neg (other _ (by decide)), if_pos visible]
  have letters : method.flatMap Json.renderChar = method := by
    induction method with
    | nil => rfl
    | cons c method ih =>
      obtain ⟨first, others⟩ := List.forall_mem_cons.mp capital
      rw [List.flatMap_cons, each c first, ih others, List.singleton_append]
  rw [Json.renderChars, letters]
  rfl

/-- The quote behind a method of capital letters ends it. -/
theorem takeWhile_capitals {method : List Char} (capital : ∀ c ∈ method, 'A' ≤ c ∧ c ≤ 'Z')
    (rest : List Char) :
    (method ++ '"' :: rest).takeWhile (fun c => decide ('A' ≤ c) && decide (c ≤ 'Z')) = method := by
  rw [List.takeWhile_append_of_pos (by simpa using capital),
    List.takeWhile_cons_of_neg (by decide), List.append_nil]

theorem dropWhile_capitals {method : List Char} (capital : ∀ c ∈ method, 'A' ≤ c ∧ c ≤ 'Z')
    (rest : List Char) :
    (method ++ '"' :: rest).dropWhile (fun c => decide ('A' ≤ c) && decide (c ≤ 'Z')) =
      '"' :: rest := by
  rw [List.dropWhile_append_of_pos (by simpa using capital),
    List.dropWhile_cons_of_neg (by decide)]

/-- The object that is written for headers is read back as these headers. -/
theorem headers?_entriesChars {headers : List (String × String)}
    (apart : (headers.map Prod.fst).Nodup) :
    headers? ('\x7b' :: (Json.entriesChars headers ++ ['\x7d'])) = some headers := by
  rw [headers?, Json.parse?_entriesChars apart]
  simp [Json.textField, Json.plainText, Function.comp_def]

/-- **A request** that is written without a margin is found, with its body as it stands there. -/
theorem request?_requestLines (name : String) (outer : margin 1 = [])
    (inner : ∀ c ∈ margin 2, isBlank c = true) (filled : request.method ≠ "")
    (capital : ∀ c ∈ request.method.toList, 'A' ≤ c ∧ c ≤ 'Z')
    (apart : (request.headers.map Prod.fst).Nodup) :
    request? name (margined margin (requestLines request)) = some { request with name } := by
  have ended := requestEnd?_endText outer inner request.body
  have headers := requestHeaders?_append (Json.inLine_entriesChars request.headers) ended
  rw [margined_requestLines, outer, renderChars_capitals capital, List.nil_append]
  generalize endText margin request.body = behind at headers
  have opened (rest : List Char) :
      after? "\"" (Json.renderChars request.endpoint.toList ++ rest) =
        some (request.endpoint.toList.flatMap Json.renderChar ++ '"' :: rest) := by
    rw [Json.renderChars_append]
    exact after?_append "\"" _
  have method (rest : List Char) :
      spaced? "method: \"" (margin 2 ++ ("method: ".toList ++
        ('"' :: (request.method.toList ++ ['"']) ++ rest))) =
        some (request.method.toList ++ '"' :: rest) := by
    have solid : "method: \"".toList.head?.all isBlank = false := by decide
    have found := spaced?_append inner solid (request.method.toList ++ '"' :: rest)
    simpa using found
  have length : (Json.renderChars request.endpoint.toList).length =
      (request.endpoint.toList.flatMap Json.renderChar).length + 1 + 1 := by
    simp [Json.renderChars]
  have solid : request.method.toList.isEmpty = false := by
    rw [List.isEmpty_eq_false_iff]
    exact fun empty => filled (String.toList_eq_nil_iff.mp empty)
  have comma (rest : List Char) : after? "\",\n" ('"' :: (",\n".toList ++ rest)) = some rest :=
    after?_append "\",\n" rest
  have kept : Option.map String.ofList (Option.map String.toList request.body) = request.body := by
    cases request.body <;> simp
  have named (rest : List Char) :
      spaced? "headers: " (margin 2 ++ ("headers: ".toList ++ rest)) = some rest :=
    spaced?_append inner (by decide) rest
  simp only [request?, after?_append, opened, quotedLength?_escaped (Json.escaped_flatMap _),
    ← length, List.drop_left, List.take_left, method, takeWhile_capitals capital,
    dropWhile_capitals capital, solid, comma, named, headers, Json.parse?_renderChars,
    Json.string?, headers?_entriesChars apart, kept, Option.bind_eq_bind, Option.bind_some,
    Bool.false_eq_true, if_false, String.ofList_toList]

/-! ## What is not found -/

theorem suffix_of_after? (found : after? literal text = some rest) : rest <:+ text :=
  ⟨literal.toList, (eq_of_after? found).symm⟩

theorem suffix_of_spaced? (found : spaced? literal text = some rest) : rest <:+ text := by
  obtain ⟨blanks, rfl, -⟩ := eq_of_spaced? found
  exact (List.suffix_append ..).trans (List.suffix_append ..)

theorem suffix_of_closesRequest (closes : closesRequest text = true) :
    "\nreturn response.json();".toList <:+ text := by
  obtain ⟨blanks, blanks', -, -, rfl⟩ := eq_of_closesRequest closes
  have last : "\nreturn response.json();".toList <:+ "\x7d\nreturn response.json();".toList := by
    decide
  exact last.trans ((((List.suffix_append ..).trans (List.suffix_append ..)).trans
    (List.suffix_append ..)).trans (List.suffix_append ..))

theorem suffix_of_requestBody? {body : List Char} (found : requestBody? text = some body) :
    "\nreturn response.json();".toList <:+ text := by
  induction text generalizing body with
  | nil => cases found
  | cons c text ih =>
    rw [requestBody?] at found
    split at found
    · next ends =>
      cases behind : after? ",\n" (c :: text) with
      | none =>
        rw [behind] at ends
        cases ends
      | some rest =>
        rw [behind] at ends
        exact (suffix_of_closesRequest ends).trans (suffix_of_after? behind)
    · obtain ⟨body, found, -⟩ := Option.map_eq_some_iff.mp found
      exact (ih found).trans (List.suffix_cons ..)

theorem suffix_of_requestEnd? {body : Option (List Char)} (found : requestEnd? text = some body) :
    "\nreturn response.json();".toList <:+ text := by
  rw [requestEnd?] at found
  split at found
  · next inside =>
    obtain ⟨rest, started, found⟩ := Option.bind_eq_some_iff.mp inside
    exact (suffix_of_requestBody? found).trans (suffix_of_spaced? started)
  · split at found
    · next closes => exact suffix_of_closesRequest closes
    · cases found

theorem suffix_of_requestHeaders? {found : List Char × Option (List Char)}
    (read : requestHeaders? text = some found) : "\nreturn response.json();".toList <:+ text := by
  induction text generalizing found with
  | nil => cases read
  | cons c text ih =>
    rw [requestHeaders?] at read
    split at read
    · next inside =>
      obtain ⟨rest, started, ended⟩ := Option.bind_eq_some_iff.mp inside
      exact (suffix_of_requestEnd? ended).trans (suffix_of_after? started)
    · obtain ⟨found, inner, -⟩ := Option.map_eq_some_iff.mp read
      exact (ih inner).trans (List.suffix_cons ..)

/-- A request is found only where its last line has no margin. -/
theorem suffix_of_request? {name : String} {request : ApiAttributes}
    (found : request? name text = some request) : "\nreturn response.json();".toList <:+ text := by
  rw [request?] at found
  obtain ⟨rest, fetched, found⟩ := Option.bind_eq_some_iff.mp found
  obtain ⟨opened, -, found⟩ := Option.bind_eq_some_iff.mp found
  obtain ⟨length, -, found⟩ := Option.bind_eq_some_iff.mp found
  obtain ⟨options, optioned, found⟩ := Option.bind_eq_some_iff.mp found
  obtain ⟨line, methodFound, found⟩ := Option.bind_eq_some_iff.mp found
  simp only at found
  split at found
  · cases found
  obtain ⟨lines, commaFound, found⟩ := Option.bind_eq_some_iff.mp found
  obtain ⟨headers, headersFound, found⟩ := Option.bind_eq_some_iff.mp found
  obtain ⟨fields, braceFound, found⟩ := Option.bind_eq_some_iff.mp found
  obtain ⟨ends, read, -⟩ := Option.bind_eq_some_iff.mp found
  exact (suffix_of_requestHeaders? read)
    |>.trans (suffix_of_after? braceFound) |>.trans (suffix_of_spaced? headersFound)
    |>.trans (suffix_of_after? commaFound) |>.trans (List.dropWhile_suffix _)
    |>.trans (suffix_of_spaced? methodFound) |>.trans (suffix_of_after? optioned)
    |>.trans (List.drop_suffix ..) |>.trans (suffix_of_after? fetched)

end Template

end SourceCanvas
