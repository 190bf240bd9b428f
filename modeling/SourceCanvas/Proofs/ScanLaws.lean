import SourceCanvas.Outline.Parser

/-!
# Scans of tokens

Brackets, types, specifiers and whatever is skipped are scanned token by token. A scan fails at a
token, stops before or behind it, or goes on somewhere behind it (`Scan.Round`). So it takes no more
rounds than there are tokens, and the tokens that it leaves are the last ones of those it was given
(`Scan.suffix`).
-/

namespace SourceCanvas

variable {State Found : Type}

/-- What a scan comes to at a token, given the tokens that an answer leaves, if it leaves any. -/
inductive Scan.Round (scan : State → List Token → Found) (left : Found → Option (List Token))
    (found : Found) (token : Token) (rest : List Token) : Prop where
  | fails (absent : left found = none)
  | before (stays : left found = some (token :: rest))
  | behind (passes : left found = some rest)
  | further (state : State) (later : List Token) (suffix : later <:+ rest)
      (same : left found = left (scan state later))

/-- A loop over tokens that stops in each round or goes on behind a token. -/
structure Scan (scan : State → List Token → Found) (left : Found → Option (List Token)) : Prop where
  ended : ∀ state rest, left (scan state []) = some rest → rest = []
  round : ∀ state token rest, Scan.Round scan left (scan state (token :: rest)) token rest

namespace Scan

variable {scan : State → List Token → Found} {left : Found → Option (List Token)} {found : Found}
  {token : Token} {rest : List Token}

/-- A scan goes on behind the token that it looks at. -/
theorem Round.next (state : State) (same : left found = left (scan state rest)) :
    Round scan left found token rest :=
  .further state rest (List.suffix_refl _) same

/-- A scan leaves the last ones of its tokens. -/
theorem suffix (scans : Scan scan left) (state : State) {tokens : List Token}
    (read : left (scan state tokens) = some rest) : rest <:+ tokens := by
  generalize length : tokens.length = count
  induction count using Nat.strongRecOn generalizing state tokens with
  | ind count ih =>
    cases tokens with
    | nil =>
      cases scans.ended state rest read
      exact List.suffix_refl _
    | cons token others =>
      have passed := List.suffix_cons token others
      cases scans.round state token others with
      | fails absent =>
        rw [absent] at read
        cases read
      | before stays =>
        rw [stays] at read
        cases read
        exact List.suffix_refl _
      | behind passes =>
        rw [passes] at read
        cases read
        exact passed
      | further state' later suffix same =>
        rw [same] at read
        have shorter : later.length < count := length ▸ Nat.lt_succ_of_le suffix.length_le
        exact (ih later.length shorter state' read rfl).trans (suffix.trans passed)

end Scan

/-! ## Brackets and types -/

namespace Extent

theorem scan_enclosed? :
    Scan (fun depth tokens => enclosed? depth tokens) (Option.map fun found => found.2.2) where
  ended _ _ read := by cases read
  round depth token rest := by
    rw [enclosed?]
    split
    · exact .next (depth + 1) (Option.map_map ..)
    split
    · split
      · exact .behind rfl
      · exact .next (depth - 1) (Option.map_map ..)
    · exact .next depth (Option.map_map ..)

theorem scan_typeRun (ending : TypeEnd) :
    Scan (fun (state : Nat × Nat × Option Token) tokens =>
      typeRun ending state.1 state.2.1 state.2.2 tokens) (fun found => some found.2) where
  ended _ _ read := by cases read; rfl
  round := by
    rintro ⟨depth, angle, previous⟩ token rest
    dsimp only
    rw [typeRun]
    split
    · exact .before rfl
    split
    · exact .next (depth + 1, angle, some token) rfl
    split
    · split
      · exact .before rfl
      · exact .next (depth - 1, angle, some token) rfl
    split
    · exact .next (depth, angle + 1, some token) rfl
    split
    · exact .next (depth, angle - token.value.length, some token) rfl
    · exact .next (depth, angle, some token) rfl

theorem scan_typeParametersRun :
    Scan (fun angle tokens => typeParametersRun angle tokens) id where
  ended _ _ read := by cases read
  round angle token rest := by
    rw [typeParametersRun]
    split
    · exact .next (angle + 1) rfl
    split
    · dsimp only
      split
      · exact .behind rfl
      · exact .next (angle - token.value.length) rfl
    · exact .next angle rfl

theorem scan_typeArguments? : Scan (fun depth tokens => typeArguments? depth tokens) id where
  ended _ _ read := by cases read
  round depth token rest := by
    rw [typeArguments?]
    split
    · split
      · exact .fails rfl
      split
      · exact .next (depth + 1) rfl
      split
      · dsimp only
        split
        · split
          · exact .behind rfl
          · exact .fails rfl
        · exact .next (depth - token.value.length) rfl
      · exact .next depth rfl
    · exact .next depth rfl
    · exact .next depth rfl
    · exact .next depth rfl
    · exact .fails rfl

theorem scan_dottedName :
    Scan (fun stop tokens => dottedName stop tokens) (Option.map Prod.snd) where
  ended _ _ read := by cases read; rfl
  round stop token rest := by
    cases rest with
    | nil =>
      rw [dottedName]
      split
      · exact .fails rfl
      · exact .before rfl
    | cons name behind =>
      rw [dottedName]
      split
      · split
        · exact .further name.stop behind (List.suffix_cons name behind) rfl
        · exact .fails rfl
      · exact .before rfl

theorem scan_angleRun :
    Scan (fun (state : Int × Nat) tokens => angleRun state.1 state.2 tokens)
      (fun found => some found.2) where
  ended _ _ read := by cases read; rfl
  round := by
    rintro ⟨depth, stop⟩ token rest
    dsimp only
    rw [angleRun]
    split
    · exact .next (depth + 1, token.stop) rfl
    split
    · dsimp only
      split
      · exact .behind rfl
      · exact .next (depth - token.value.length, token.stop) rfl
    · exact .next (depth, token.stop) rfl

theorem scan_arrayMarks :
    Scan (fun stop tokens => arrayMarks stop tokens) (fun found => some found.2) where
  ended _ _ read := by cases read; rfl
  round stop token rest := by
    cases rest with
    | nil => exact .before rfl
    | cons closer behind =>
      rw [arrayMarks]
      split
      · exact .further closer.stop behind (List.suffix_cons closer behind) rfl
      · exact .before rfl

end Extent

/-! ## Parameters, members and statements -/

theorem scan_dropModifiers : Scan (fun (_ : Unit) tokens => dropModifiers tokens) some where
  ended _ _ read := by cases read; rfl
  round _ token rest := by
    cases rest with
    | nil => exact .before rfl
    | cons name behind =>
      rw [dropModifiers]
      split
      · exact .next () rfl
      · exact .before rfl

theorem scan_specifiers :
    Scan (fun words tokens => Reading.specifiers words tokens)
      (Option.map fun found => found.2.2) where
  ended _ _ read := by cases read
  round words token rest := by
    rw [Reading.specifiers]
    split
    · exact .behind rfl
    split
    · exact .next [] (Option.map_map ..)
    · exact .next (words ++ [token.value]) rfl

theorem scan_skipMember :
    Scan (fun (state : Nat × Bool) tokens => skipMember state.1 state.2 tokens) some where
  ended _ _ read := by cases read; rfl
  round := by
    rintro ⟨depth, first⟩ token rest
    dsimp only
    rw [skipMember]
    split
    · exact .before rfl
    split
    · exact .next (depth + 1, false) rfl
    split
    · exact .next (depth - 1, false) rfl
    · exact .next (depth, false) rfl

theorem scan_skipStatement :
    Scan (fun (state : Nat × Bool) tokens => skipStatement state.1 state.2 tokens) some where
  ended _ _ read := by cases read; rfl
  round := by
    rintro ⟨depth, first⟩ token rest
    dsimp only
    rw [skipStatement]
    split
    · exact .before rfl
    split
    · exact .next (depth + 1, false) rfl
    split
    · split
      · exact .before rfl
      split
      · exact .behind rfl
      · exact .next (depth - 1, false) rfl
    split
    · exact .behind rfl
    · exact .next (depth, false) rfl

/-! ## All scans -/

open Extent in
/-- The loops over tokens are scans. -/
structure Scanning : Prop where
  brackets : Scan (fun depth tokens => enclosed? depth tokens) (Option.map fun found => found.2.2)
  types : ∀ ending, Scan (fun (state : Nat × Nat × Option Token) tokens =>
    typeRun ending state.1 state.2.1 state.2.2 tokens) (fun found => some found.2)
  typeParameters : Scan (fun angle tokens => typeParametersRun angle tokens) id
  typeArguments : Scan (fun depth tokens => typeArguments? depth tokens) id
  names : Scan (fun stop tokens => dottedName stop tokens) (Option.map Prod.snd)
  angles : Scan (fun (state : Int × Nat) tokens => angleRun state.1 state.2 tokens)
    (fun found => some found.2)
  marks : Scan (fun stop tokens => arrayMarks stop tokens) (fun found => some found.2)
  modifiers : Scan (fun (_ : Unit) tokens => dropModifiers tokens) some
  specifiers : Scan (fun words tokens => Reading.specifiers words tokens)
    (Option.map fun found => found.2.2)
  skippedMember : Scan (fun (state : Nat × Bool) tokens =>
    skipMember state.1 state.2 tokens) some
  skippedStatement : Scan (fun (state : Nat × Bool) tokens =>
    skipStatement state.1 state.2 tokens) some

open Extent in
theorem scanning : Scanning where
  brackets := scan_enclosed?
  types := scan_typeRun
  typeParameters := scan_typeParametersRun
  typeArguments := scan_typeArguments?
  names := scan_dottedName
  angles := scan_angleRun
  marks := scan_arrayMarks
  modifiers := scan_dropModifiers
  specifiers := scan_specifiers
  skippedMember := scan_skipMember
  skippedStatement := scan_skipStatement

end SourceCanvas
