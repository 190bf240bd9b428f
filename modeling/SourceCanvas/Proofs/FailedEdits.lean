import SourceCanvas.Proofs.Connecting

/-!
# Edits that fail

An edge is drawn before its handle is read. So an edge that counts in digits which no number is read
from is in the graph all the same, and all that a failed connection leaves alone are the nodes
(`Graph.failed_edit`). These are the only connections that fail (`Graph.connect_error_iff`). A failed
change of attributes leaves nothing behind.
-/

namespace SourceCanvas

/-! ## Digits that cannot be read -/

/-- A number is given in digits that cannot be read. -/
def Unread (digits : List Char) : Prop :=
  digits ≠ [] ∧ digits.all Text.isDigit = true ∧ Text.readWhole? digits = none

theorem handleIndex_error_iff {digits : List Char} {fault : Fault} :
    handleIndex digits = .error fault ↔ fault = .shape .indexDigits ∧ Unread digits := by
  rw [handleIndex, Unread]
  by_cases other : (digits.isEmpty || !digits.all Text.isDigit) = true
  · rw [if_pos other]
    refine ⟨nofun, fun ⟨_, filled, all, _⟩ => ?_⟩
    rw [all, Bool.not_true, Bool.or_false, List.isEmpty_iff] at other
    exact absurd other filled
  · rw [if_neg other]
    rw [Bool.or_eq_true, List.isEmpty_iff, Bool.not_eq_true', not_or, Bool.not_eq_false] at other
    cases number : Text.readWhole? digits with
    | some index => exact ⟨nofun, fun ⟨_, _, _, unread⟩ => nomatch unread⟩
    | none =>
      refine ⟨fun same => ?_, fun ⟨same, _⟩ => same ▸ rfl⟩
      cases same
      exact ⟨rfl, other.1, other.2, rfl⟩

/-- What is done with a number behind the beginning of a handle fails where the number does. -/
theorem indexed_error_iff {α : Type} {beginning handle : String} {fault : Fault}
    {use : Option Nat → Except Fault (Option α)} (sure : ∀ place, ∃ found, use place = .ok found) :
    (match handleSuffix? beginning handle with
      | none => pure none
      | some suffix => handleIndex suffix >>= use) = .error fault ↔
      fault = .shape .indexDigits ∧
        ∃ digits, handle.toList = beginning.toList ++ digits ∧ Unread digits := by
  simp only [← handleSuffix?_iff]
  cases handleSuffix? beginning handle with
  | none => exact ⟨nofun, fun ⟨_, _, found, _⟩ => nomatch found⟩
  | some digits =>
    have one : (∃ other, some digits = some other ∧ Unread other) ↔ Unread digits := by simp
    rw [one, ← handleIndex_error_iff]
    show handleIndex digits >>= use = .error fault ↔ _
    cases handleIndex digits with
    | error other =>
      constructor
      all_goals
        intro same
        cases same
        rfl
    | ok place =>
      obtain ⟨found, done⟩ := sure place
      refine ⟨fun same => ?_, nofun⟩
      cases done.symm.trans same

theorem CallAttributes.writeHandle_error_iff {call : CallAttributes} {handle text : String}
    {fault : Fault} : call.writeHandle handle text = .error fault ↔ fault = .shape .indexDigits ∧
      ∃ digits, handle.toList = "arg".toList ++ digits ∧ Unread digits := by
  refine indexed_error_iff fun place => ?_
  cases place with
  | none => exact ⟨_, rfl⟩
  | some place => exact ⟨_, rfl⟩

theorem ObjectAttributes.writeHandle_error_iff {object : ObjectAttributes} {handle text : String}
    {fault : Fault} : object.writeHandle handle text = .error fault ↔
      fault = .shape .indexDigits ∧
        ∃ digits, handle.toList = "prop-".toList ++ digits ∧ Unread digits := by
  refine indexed_error_iff fun place => ?_
  cases place with
  | none => exact ⟨_, rfl⟩
  | some place =>
    dsimp only
    split <;> exact ⟨_, rfl⟩

theorem map_eq_error_iff {α β : Type} {make : α → β} {result : Except Fault (Option α)}
    {fault : Fault} : (·.map make) <$> result = .error fault ↔ result = .error fault := by
  cases result with
  | error other =>
    constructor
    all_goals
      intro same
      cases same
      rfl
  | ok found => exact ⟨nofun, nofun⟩

/-- A handle counts arguments or properties in digits that cannot be read. -/
def Attributes.Miscounted (attributes : Attributes) (handle : String) : Prop :=
  ∃ digits, Unread digits ∧
    (attributes.kind = .call ∧ handle.toList = "arg".toList ++ digits ∨
      attributes.kind = .object ∧ handle.toList = "prop-".toList ++ digits)

theorem Attributes.writeHandle_error_iff {attributes : Attributes} {handle text : String}
    {fault : Fault} : attributes.writeHandle handle text = .error fault ↔
      fault = .shape .indexDigits ∧ attributes.Miscounted handle := by
  unfold Attributes.writeHandle Miscounted
  split
  case h_9 call _ =>
    rw [map_eq_error_iff, CallAttributes.writeHandle_error_iff]
    simp [Attributes.kind, and_comm]
  case h_10 =>
    rw [map_eq_error_iff, ObjectAttributes.writeHandle_error_iff]
    simp [Attributes.kind, and_comm]
  case h_11 _ _ noCall noObject _ _ _ _ _ _ _ _ =>
    refine ⟨nofun, ?_⟩
    rintro ⟨-, digits, -, ⟨kind, -⟩ | ⟨kind, -⟩⟩
    · cases attributes <;> cases kind
      exact (noCall _ rfl).elim
    · cases attributes <;> cases kind
      exact (noObject _ rfl).elim
  all_goals simp [Attributes.kind]

theorem effect_error_iff {source target : CanvasNode} {from_ into : Attributes} {handle : String}
    {fault : Fault} : effect source target from_ into handle = .error fault ↔
      fault = .shape .indexDigits ∧ source.attributesText from_ ≠ none ∧
        into.Miscounted handle := by
  unfold effect
  split
  · refine ⟨fun fails => ?_, ?_⟩
    · split at fails <;> cases fails
    · rintro ⟨-, -, digits, -, ⟨kind, -⟩ | ⟨kind, -⟩⟩ <;> cases kind
  · refine ⟨nofun, ?_⟩
    rintro ⟨-, -, digits, -, ⟨-, named⟩ | ⟨kind, -⟩⟩
    -- the handle that says what is called does not begin like those of arguments
    · cases named
    · cases kind
  · refine ⟨fun fails => ?_, ?_⟩
    · split at fails <;> cases fails
    · rintro ⟨-, -, digits, -, ⟨kind, -⟩ | ⟨kind, -⟩⟩ <;> cases kind
  · split
    · next silent => exact ⟨nofun, fun ⟨_, speaks, _⟩ => (speaks silent).elim⟩
    · next text stands =>
      rw [map_eq_error_iff, Attributes.writeHandle_error_iff, stands]
      simp

/-! ## Failed connections and changes -/

namespace Graph

variable {graph graph' : Graph} {edge : Edge}

/-- An edge has something to write into its target, and a handle that counts in digits that cannot
be read. -/
def Miscounted (graph : Graph) (edge : Edge) : Prop :=
  ∃ source target from_ into, graph.node? edge.source = some source ∧
    graph.node? edge.target = some target ∧ source.content = .typed from_ ∧
    target.content = .typed into ∧ source.attributesText from_ ≠ none ∧
    into.Miscounted (edge.targetHandle.getD "")

/-- A connection fails exactly where it counts in digits that cannot be read. -/
theorem connect_error_iff :
    (∃ fault, (graph.connect edge).2 = .error fault) ↔ graph.Miscounted edge := by
  constructor
  · rintro ⟨fault, failed⟩
    have connection := graph.connection edge
    generalize graph.connect edge = result at connection failed
    cases connection with
    | refused | idle | made => cases failed
    | stuck ends first second given taken fails =>
      obtain ⟨-, speaks, miscounted⟩ := effect_error_iff.mp fails
      exact ⟨_, _, _, _, first, second, given, taken, speaks, miscounted⟩
  · rintro ⟨source, target, from_, into, first, second, given, taken, speaks, miscounted⟩
    refine ⟨.shape .indexDigits, ?_⟩
    rw [connect_of_typed first second given taken,
      effect_error_iff.mpr ⟨rfl, speaks, miscounted⟩]

/-- Drawing an edge changes nothing if it is the last one and the only one with its id. -/
theorem withEdge_eq_iff : graph.withEdge edge = graph ↔
    ∃ earlier, graph.edges = earlier ++ [edge] ∧ ∀ other ∈ earlier, other.id ≠ edge.id := by
  constructor
  · intro same
    refine ⟨graph.edges.filter (·.id != edge.id), (congrArg Graph.edges same).symm, ?_⟩
    intro other member
    simpa using (List.mem_filter.mp member).2
  · rintro ⟨earlier, edges, others⟩
    -- the edge itself is taken out and drawn again
    have kept : earlier.filter (·.id != edge.id) = earlier :=
      List.filter_eq_self.mpr fun other member => by simpa using others other member
    have gone : [edge].filter (·.id != edge.id) = [] := by simp
    rw [withEdge, edges, List.filter_append, kept, gone, List.append_nil, ← edges]

theorem eq_withEdge_of_error {fault : Fault}
    (failed : graph.connect edge = (graph', .error fault)) : graph' = graph.withEdge edge := by
  have connection := graph.connection edge
  rw [failed] at connection
  cases connection with
  | stuck => rfl

theorem eq_of_update_error {id : String} {changes : Json.Fields} {fault : Fault}
    (failed : graph.update id changes = (graph', .error fault)) : graph' = graph := by
  rw [update] at failed
  split at failed
  · cases failed
    rfl
  · cases failed
  · split at failed
    · cases failed
      rfl
    · cases failed

/-- **Failed edits**: a connection that fails leaves the nodes as they were, but draws its edge all
the same, so that the graph stays the same only if this edge was the last one and the only one with
its id. A failed change of attributes leaves the graph as it was. -/
theorem failed_edit (graph : Graph) :
    (∀ edge graph' fault, graph.connect edge = (graph', .error fault) →
      graph'.nodes = graph.nodes ∧
        graph'.edges = graph.edges.filter (·.id != edge.id) ++ [edge] ∧
        (graph' = graph ↔ ∃ earlier, graph.edges = earlier ++ [edge] ∧
          ∀ other ∈ earlier, other.id ≠ edge.id)) ∧
    (∀ edge, (∃ fault, (graph.connect edge).2 = .error fault) ↔ graph.Miscounted edge) ∧
    ∀ id changes graph' fault, graph.update id changes = (graph', .error fault) →
      graph' = graph := by
  refine ⟨?_, fun edge => connect_error_iff, fun id changes graph' fault => eq_of_update_error⟩
  intro edge graph' fault failed
  obtain rfl := eq_withEdge_of_error failed
  exact ⟨rfl, rfl, withEdge_eq_iff⟩

/-- A number next to a call. -/
def calling : Graph where
  nodes := [{ id := "call", content := .typed (.call {}) },
    { id := "number", content := .typed (.literal { value := "1", kind := .number }) }]

/-- An edge into an argument of the call that is counted by a raised digit. -/
def raised : Edge :=
  { id := "edge", source := "number", target := "call", targetHandle := some "arg²" }

/-- Where the edge is there already, the failed connection leaves the graph as it was, and so does a
change of a field that calls do not have. -/
theorem failed_edit_calling :
    (∃ graph' fault, (calling.withEdge raised).connect raised = (graph', .error fault) ∧
      graph' = calling.withEdge raised) ∧
    ∃ graph' fault, calling.update "call" [("lhs", .null)] = (graph', .error fault) ∧
      graph' = calling := by
  constructor
  · have failed : (calling.withEdge raised).connect raised =
        (_, .error (.shape .indexDigits)) := rfl
    obtain ⟨-, -, same⟩ := (failed_edit (calling.withEdge raised)).1 _ _ _ failed
    exact ⟨_, _, failed, same.mpr ⟨[], rfl, nofun⟩⟩
  · have failed : calling.update "call" [("lhs", .null)] = (_, .error _) := rfl
    exact ⟨_, _, failed, (failed_edit calling).2.2 _ _ _ _ failed⟩

/-- Otherwise the failed connection leaves its edge behind. -/
theorem not_unchanged_calling : ∃ graph' fault,
    calling.connect raised = (graph', .error fault) ∧ graph' ≠ calling := by
  refine ⟨calling.withEdge raised, .shape .indexDigits, rfl, fun same => ?_⟩
  have edges := congrArg Graph.edges same
  cases edges

end Graph

end SourceCanvas
