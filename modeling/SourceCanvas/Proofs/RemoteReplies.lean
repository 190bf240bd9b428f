import SourceCanvas.Proofs.PayloadReading
import SourceCanvas.Store.Remote

/-!
# Replies of a remote store

A call to a remote store is settled if it gives what the reply holds or the store fails
(`Remote.Settled`). Calls that do not list are settled whatever comes back. A listing checks that
the reply is an object which reports success, but takes for granted what the value of the reply is:
it is settled if and only if that value, where success is reported, lists documents with all fields
that a record needs (`Remote.settled_iff`). For any other value it fails as malformed.
-/

namespace SourceCanvas

/-- The arguments of a call are all there: a node that is written has a place. -/
def StoreCall.Valid : StoreCall → Prop
  | .upsertNode _ entry => entry.x.isSome ∧ entry.y.isSome
  | _ => True

/-- Whether a call gives the value of the reply as it is. -/
def StoreCall.passesOn : StoreCall → Bool
  | .createFlow _ _ | .upsertNode _ _ | .upsertEdge _ _ | .preview _ => true
  | _ => false

/-- The fields that the documents of a listing need. -/
def StoreCall.needed? : StoreCall → Option (List String)
  | .listNodes _ => some ["_id", "flowId", "type"]
  | .listEdges _ => some ["_id", "flowId", "source", "target"]
  | _ => none

namespace Remote

variable {call : StoreCall} {outcome : RemoteOutcome} {value document : Json}

/-! ## What a reply holds -/

/-- A reply is an object that reports success. A value that it does not have is null. -/
def Reports (outcome : RemoteOutcome) (value : Json) : Prop :=
  ∃ fields, outcome = .body (.object fields) ∧
    Catalog.get? fields "status" = some (.string "success") ∧
    value = (Catalog.get? fields "value").getD .null

/-- A value lists documents. One that does not count as given lists none. -/
def Lists (value : Json) (documents : List Json) : Prop :=
  value = .array documents ∨ value.isGiven = false ∧ documents = []

/-- A document is an object with fields under all of the names. -/
def Holds (names : List String) (document : Json) : Prop :=
  ∃ fields, document = .object fields ∧ ∀ name ∈ names, (Catalog.get? fields name).isSome

/-- A document holds a node. -/
def HoldsNode (document : Json) (node : NodeDocument) : Prop :=
  ∃ fields, document = .object fields ∧ Catalog.get? fields "_id" = some node.id ∧
    Catalog.get? fields "flowId" = some node.flow ∧ Catalog.get? fields "type" = some node.kind ∧
    node.data = dataOf fields ∧ node.x = optional fields "x" (.float 0) ∧
    node.y = optional fields "y" (.float 0)

/-- A document holds an edge. -/
def HoldsEdge (document : Json) (edge : EdgeDocument) : Prop :=
  ∃ fields, document = .object fields ∧ Catalog.get? fields "_id" = some edge.id ∧
    Catalog.get? fields "flowId" = some edge.flow ∧
    Catalog.get? fields "source" = some edge.source ∧
    Catalog.get? fields "target" = some edge.target ∧
    edge.sourceHandle = optional fields "sourceHandle" .null ∧
    edge.targetHandle = optional fields "targetHandle" .null ∧ edge.data = dataOf fields

/-- What a call gives for the value of a reply. -/
inductive Answers : StoreCall → Json → RemoteReply → Prop
  | value {call : StoreCall} {value : Json} (passesOn : call.passesOn = true) :
      Answers call value (.value value)
  | nodes {flow : Option String} {value : Json} {documents : List Json}
      {nodes : List NodeDocument} (lists : Lists value documents)
      (each : List.Forall₂ HoldsNode documents nodes) :
      Answers (.listNodes flow) value (.nodes nodes)
  | edges {flow : Option String} {value : Json} {documents : List Json}
      {edges : List EdgeDocument} (lists : Lists value documents)
      (each : List.Forall₂ HoldsEdge documents edges) :
      Answers (.listEdges flow) value (.edges edges)
  | done {call : StoreCall} {value : Json} (keeps : call.passesOn = false)
      (silent : call.needed? = none) : Answers call value .done

/-- A value is what a call expects: where the call lists records, it lists documents with the
fields that these need. -/
def Fits (call : StoreCall) (value : Json) : Prop :=
  ∀ names, call.needed? = some names →
    ∃ documents, Lists value documents ∧ ∀ document ∈ documents, Holds names document

/-- A call gives what the reply holds, or the store fails. -/
def Settled (call : StoreCall) (outcome : RemoteOutcome) : Prop :=
  (∃ value reply, Reports outcome value ∧ Answers call value reply ∧
    read call outcome = .ok reply) ∨
  ∃ cause, read call outcome = .error (.store cause)

/-! ## Malformed values -/

/-- What can be wrong is the form of a value only. -/
def FailsByShape {α : Type} (result : Except Fault α) : Prop :=
  ∀ fault, result = .error fault → ∃ cause, fault = .shape cause

theorem failsByShape_ok {α : Type} (result : α) : FailsByShape (.ok result) := nofun

theorem failsByShape_shape {α : Type} (cause : ShapeCause) :
    FailsByShape (.error (.shape cause) : Except Fault α) := by
  intro fault same
  cases same
  exact ⟨cause, rfl⟩

theorem FailsByShape.bind {α β : Type} {first : Except Fault α} {next : α → Except Fault β}
    (start : FailsByShape first) (onward : ∀ middle, FailsByShape (next middle)) :
    FailsByShape (first >>= next) := by
  cases first with
  | error fault =>
    obtain ⟨cause, rfl⟩ := start fault rfl
    exact failsByShape_shape cause
  | ok middle => exact onward middle

theorem FailsByShape.mapM {α β : Type} {read : α → Except Fault β}
    (each : ∀ item, FailsByShape (read item)) (items : List α) :
    FailsByShape (items.mapM read) := by
  intro fault failed
  obtain ⟨item, -, failed⟩ := Program.exists_of_mapM_error failed
  exact each item fault failed

/-! ## Documents -/

theorem fieldsOf_eq_ok_iff {fields : Json.Fields} :
    fieldsOf document = .ok fields ↔ document = .object fields := by
  cases document <;> simp [fieldsOf]

theorem required_eq_ok_iff {fields : Json.Fields} {name : String} :
    required fields name = .ok value ↔ Catalog.get? fields name = some value := by
  rw [required]
  cases Catalog.get? fields name <;> simp

theorem documents_eq_ok_iff {found : List Json} :
    documents value = .ok found ↔ Lists value found := by
  rw [documents.eq_def, Lists]
  by_cases given : value.isGiven = true
  · simp only [given, Bool.not_true, Bool.false_eq_true, if_false]
    cases value <;> simp
  · -- an empty list lists nothing either way
    have blank : value.isGiven = false := by simpa using given
    have empty (same : value = .array found) : found = [] := by
      subst same
      simpa [Json.isGiven] using blank
    simp only [blank, Bool.not_false, if_true]
    grind

theorem failsByShape_fieldsOf (document : Json) : FailsByShape (fieldsOf document) := by
  cases document with
  | object fields => exact failsByShape_ok fields
  | _ => exact failsByShape_shape _

theorem failsByShape_required (fields : Json.Fields) (name : String) :
    FailsByShape (required fields name) := by
  rw [required]
  cases Catalog.get? fields name with
  | some value => exact failsByShape_ok value
  | none => exact failsByShape_shape _

theorem failsByShape_documents (value : Json) : FailsByShape (documents value) := by
  rw [documents.eq_def]
  split
  · exact failsByShape_ok []
  · cases value with
    | array documents => exact failsByShape_ok documents
    | _ => exact failsByShape_shape _

theorem readNode_eq_ok_iff {node : NodeDocument} :
    readNode document = .ok node ↔ HoldsNode document node := by
  obtain ⟨id, flow, kind, data, x, y⟩ := node
  simp only [readNode, bind_eq_ok_iff, fieldsOf_eq_ok_iff, required_eq_ok_iff, HoldsNode, pure,
    Except.pure, Except.ok.injEq, NodeDocument.mk.injEq]
  grind

theorem readEdge_eq_ok_iff {edge : EdgeDocument} :
    readEdge document = .ok edge ↔ HoldsEdge document edge := by
  obtain ⟨id, flow, source, target, sourceHandle, targetHandle, data⟩ := edge
  simp only [readEdge, bind_eq_ok_iff, fieldsOf_eq_ok_iff, required_eq_ok_iff, HoldsEdge, pure,
    Except.pure, Except.ok.injEq, EdgeDocument.mk.injEq]
  grind

theorem failsByShape_readNode (document : Json) : FailsByShape (readNode document) :=
  (failsByShape_fieldsOf document).bind fun fields =>
    (failsByShape_required fields _).bind fun _ =>
      (failsByShape_required fields _).bind fun _ =>
        (failsByShape_required fields _).bind fun _ => failsByShape_ok _

theorem failsByShape_readEdge (document : Json) : FailsByShape (readEdge document) :=
  (failsByShape_fieldsOf document).bind fun fields =>
    (failsByShape_required fields _).bind fun _ =>
      (failsByShape_required fields _).bind fun _ =>
        (failsByShape_required fields _).bind fun _ =>
          (failsByShape_required fields _).bind fun _ => failsByShape_ok _

/-- A document holds a node if it has the fields that a node needs. -/
theorem exists_holdsNode_iff :
    (∃ node, HoldsNode document node) ↔ Holds ["_id", "flowId", "type"] document := by
  constructor
  · rintro ⟨node, fields, rfl, id, flow, kind, -⟩
    exact ⟨fields, rfl, by simp [id, flow, kind]⟩
  · rintro ⟨fields, rfl, all⟩
    simp only [List.forall_mem_cons, Option.isSome_iff_exists] at all
    obtain ⟨⟨id, hasId⟩, ⟨flow, hasFlow⟩, ⟨kind, hasKind⟩, -⟩ := all
    exact ⟨⟨id, flow, kind, _, _, _⟩, fields, rfl, hasId, hasFlow, hasKind, rfl, rfl, rfl⟩

/-- A document holds an edge if it has the fields that an edge needs. -/
theorem exists_holdsEdge_iff : (∃ edge, HoldsEdge document edge) ↔
    Holds ["_id", "flowId", "source", "target"] document := by
  constructor
  · rintro ⟨edge, fields, rfl, id, flow, source, target, -⟩
    exact ⟨fields, rfl, by simp [id, flow, source, target]⟩
  · rintro ⟨fields, rfl, all⟩
    simp only [List.forall_mem_cons, Option.isSome_iff_exists] at all
    obtain ⟨⟨id, hasId⟩, ⟨flow, hasFlow⟩, ⟨source, hasSource⟩, ⟨target, hasTarget⟩, -⟩ := all
    exact ⟨⟨id, flow, source, target, _, _, _⟩, fields, rfl, hasId, hasFlow, hasSource, hasTarget,
      rfl, rfl, rfl⟩

/-! ## Replies -/

theorem Reports.unique {other : Json} (reports : Reports outcome value)
    (reports' : Reports outcome other) : value = other := by
  obtain ⟨fields, rfl, -, rfl⟩ := reports
  obtain ⟨_, ⟨⟩, -, rfl⟩ := reports'
  rfl

theorem valueOf_eq_ok_iff : valueOf call outcome = .ok value ↔ Reports outcome value := by
  rw [valueOf.eq_def, Reports]
  split
  · simp
  · next fields =>
    split
    · next success => simp [success, eq_comm]
    · next failure => simp [failure]
  · next other _ _ => simp; grind

/-- A reply that does not report success is a failure of the store. -/
theorem exists_of_valueOf_error {fault : Fault} (failed : valueOf call outcome = .error fault) :
    ∃ cause, fault = .store cause := by
  rw [valueOf.eq_def] at failed
  split at failed
  · cases failed
    exact ⟨_, rfl⟩
  · split at failed
    · cases failed
    · cases failed
      exact ⟨_, rfl⟩
  · cases failed
    exact ⟨_, rfl⟩

/-! ## Calls -/

theorem exists_forall₂_iff {α β : Type} {related : α → β → Prop} {as : List α} :
    (∃ bs, List.Forall₂ related as bs) ↔ ∀ a ∈ as, ∃ b, related a b := by
  induction as with
  | nil => simp
  | cons a rest ih =>
    simp only [List.forall_mem_cons, ← ih, List.forall₂_cons_left_iff]
    grind

/-- The records of a listing are those that the documents hold, one by one. -/
theorem listing_eq_ok_iff {β : Type} {readOne : Json → Except Fault β} {holds : Json → β → Prop}
    (each : ∀ {document record}, readOne document = .ok record ↔ holds document record)
    {records : List β} : documents value >>= List.mapM readOne = .ok records ↔
      ∃ documents, Lists value documents ∧ List.Forall₂ holds documents records := by
  simp only [bind_eq_ok_iff, documents_eq_ok_iff, mapM_eq_ok_iff, each]

/-- A call gives a reply if success is reported, with a value that holds it. -/
theorem read_eq_ok_iff {reply : RemoteReply} : read call outcome = .ok reply ↔
    ∃ value, Reports outcome value ∧ Answers call value reply := by
  rw [read, bind_eq_ok_iff]
  refine exists_congr fun value => ?_
  rw [valueOf_eq_ok_iff]
  refine and_congr_right fun _ => ?_
  cases call with
  | createFlow | upsertNode | upsertEdge | preview =>
    constructor
    · rintro ⟨⟩
      exact .value rfl
    · rintro (_ | _ | _ | ⟨keeps, -⟩)
      · rfl
      · cases keeps
  | removeNode | removeEdge | updatePreview | close =>
    constructor
    · rintro ⟨⟩
      exact .done rfl rfl
    · rintro (⟨⟨⟩⟩ | _ | _ | _)
      rfl
  | listNodes flow =>
    simp only [← bind_assoc, bind_eq_ok_iff, listing_eq_ok_iff readNode_eq_ok_iff]
    constructor
    · rintro ⟨nodes, ⟨documents, lists, each⟩, ⟨⟩⟩
      exact .nodes lists each
    · rintro (⟨⟨⟩⟩ | ⟨lists, each⟩ | _ | ⟨-, ⟨⟩⟩)
      exact ⟨_, ⟨_, lists, each⟩, rfl⟩
  | listEdges flow =>
    simp only [← bind_assoc, bind_eq_ok_iff, listing_eq_ok_iff readEdge_eq_ok_iff]
    constructor
    · rintro ⟨edges, ⟨documents, lists, each⟩, ⟨⟩⟩
      exact .edges lists each
    · rintro (⟨⟨⟩⟩ | _ | ⟨lists, each⟩ | ⟨-, ⟨⟩⟩)
      exact ⟨_, ⟨_, lists, each⟩, rfl⟩

/-- There is an answer for a value if it is what the call expects. -/
theorem exists_answers_iff : (∃ reply, Answers call value reply) ↔ Fits call value := by
  cases call with
  | createFlow | upsertNode | upsertEdge | preview =>
    exact ⟨fun _ _ => nofun, fun _ => ⟨_, .value rfl⟩⟩
  | removeNode | removeEdge | updatePreview | close =>
    exact ⟨fun _ _ => nofun, fun _ => ⟨_, .done rfl rfl⟩⟩
  | listNodes flow =>
    simp only [Fits, StoreCall.needed?, Option.some.injEq, forall_eq', ← exists_holdsNode_iff,
      ← exists_forall₂_iff]
    constructor
    · rintro ⟨_, ⟨⟨⟩⟩ | ⟨lists, each⟩ | _ | ⟨-, ⟨⟩⟩⟩
      exact ⟨_, lists, _, each⟩
    · rintro ⟨documents, lists, nodes, each⟩
      exact ⟨_, .nodes lists each⟩
  | listEdges flow =>
    simp only [Fits, StoreCall.needed?, Option.some.injEq, forall_eq', ← exists_holdsEdge_iff,
      ← exists_forall₂_iff]
    constructor
    · rintro ⟨_, ⟨⟨⟩⟩ | _ | ⟨lists, each⟩ | ⟨-, ⟨⟩⟩⟩
      exact ⟨_, lists, _, each⟩
    · rintro ⟨documents, lists, edges, each⟩
      exact ⟨_, .edges lists each⟩

/-- Where success is reported, a call fails by the form of a value only. -/
theorem failsByShape_read (reports : Reports outcome value) : FailsByShape (read call outcome) := by
  rw [read, valueOf_eq_ok_iff.mpr reports]
  cases call with
  | listNodes flow =>
    exact (failsByShape_documents value).bind fun found =>
      (FailsByShape.mapM failsByShape_readNode found).bind fun _ => failsByShape_ok _
  | listEdges flow =>
    exact (failsByShape_documents value).bind fun found =>
      (FailsByShape.mapM failsByShape_readEdge found).bind fun _ => failsByShape_ok _
  | _ => exact failsByShape_ok _

/-- Where success is not reported, the store fails. -/
theorem exists_of_not_reports (silent : ∀ value, ¬ Reports outcome value) :
    ∃ cause, read call outcome = .error (.store cause) := by
  cases found : valueOf call outcome with
  | ok value => exact (silent value (valueOf_eq_ok_iff.mp found)).elim
  | error fault =>
    obtain ⟨cause, rfl⟩ := exists_of_valueOf_error found
    exact ⟨cause, by rw [read, found]; rfl⟩

/-- A call whose arguments are there is sent. -/
theorem exists_request (remote : Remote) (valid : call.Valid) :
    ∃ request, remote.request call = .ok request := by
  cases call with
  | upsertNode id entry =>
    obtain ⟨hasX, hasY⟩ := valid
    obtain ⟨x, hasX⟩ := Option.isSome_iff_exists.mp hasX
    obtain ⟨y, hasY⟩ := Option.isSome_iff_exists.mp hasY
    rw [request, arguments, hasX, hasY]
    exact ⟨_, rfl⟩
  | _ => exact ⟨_, rfl⟩

/-- **Replies of a remote store**: a call whose arguments are there is sent. It gives what the reply
holds, or the store fails, if and only if the value of the reply, where success is reported, is what
the call expects. For any other value it fails as malformed. -/
theorem settled_iff (remote : Remote) (valid : call.Valid) (outcome : RemoteOutcome) :
    (∃ request, remote.request call = .ok request) ∧
    (Settled call outcome ↔ ∀ value, Reports outcome value → Fits call value) ∧
    ∀ value, Reports outcome value → ¬ Fits call value →
      ∃ cause, read call outcome = .error (.shape cause) := by
  have unfit (value : Json) (reports : Reports outcome value) (unfit : ¬ Fits call value) :
      ∃ cause, read call outcome = .error (.shape cause) := by
    cases result : read call outcome with
    | ok reply =>
      obtain ⟨other, reports', answers⟩ := read_eq_ok_iff.mp result
      obtain rfl := reports.unique reports'
      exact (unfit (exists_answers_iff.mp ⟨reply, answers⟩)).elim
    | error fault =>
      obtain ⟨cause, rfl⟩ := failsByShape_read reports fault result
      exact ⟨cause, rfl⟩
  refine ⟨exists_request remote valid, ⟨?_, fun fits => ?_⟩, unfit⟩
  · rintro settled value reports
    by_contra off
    obtain ⟨cause, failed⟩ := unfit value reports off
    rcases settled with ⟨_, _, -, -, result⟩ | ⟨_, result⟩
    · cases failed.symm.trans result
    · cases failed.symm.trans result
  · by_cases reported : ∃ value, Reports outcome value
    · obtain ⟨value, reports⟩ := reported
      obtain ⟨reply, answers⟩ := exists_answers_iff.mpr (fits value reports)
      exact .inl ⟨value, reply, reports, answers, read_eq_ok_iff.mpr ⟨value, reports, answers⟩⟩
    · exact .inr (exists_of_not_reports (not_exists.mp reported))

/-- A reply that reports success with a list of documents. -/
def listing (documents : List Json) : RemoteOutcome :=
  .body (.object [("status", .string "success"), ("value", .array documents)])

/-- A document of a node that has a kind and no data. -/
def plainDocument : Json :=
  .object [("_id", .string "n"), ("flowId", .string "f"), ("type", .string "literal")]

/-- Writing a node that has a place. -/
def placing : StoreCall := .upsertNode none ⟨some "f", some "literal", .null, some 1, some 2⟩

/-- Writing a node is settled when the connection fails, and so is a listing of one document. -/
theorem settled_listing : placing.Valid ∧ Settled placing (.failed "down") ∧
    Settled (.listNodes (some "f")) (listing [plainDocument]) := by
  have remote : Remote := ⟨"https://h", .whole 10⟩
  have placed : placing.Valid := ⟨rfl, rfl⟩
  have asked : StoreCall.Valid (.listNodes (some "f")) := trivial
  refine ⟨placed, ?_, ?_⟩
  · exact (settled_iff remote placed _).2.1.mpr fun _ _ => nofun
  · refine (settled_iff remote asked _).2.1.mpr ?_
    rintro _ ⟨fields, ⟨⟩, -, rfl⟩ _ ⟨⟩
    refine ⟨[plainDocument], .inl rfl, ?_⟩
    simp only [List.mem_singleton, forall_eq]
    exact ⟨_, rfl, by decide⟩

/-- A listing of a document without fields fails, and it is not the store that fails. -/
theorem not_settled_listing : ¬ Settled (.listNodes (some "f")) (listing [.object []]) := by
  rintro (⟨_, _, -, -, result⟩ | ⟨_, result⟩)
  · cases result
  · cases result

end Remote

end SourceCanvas
