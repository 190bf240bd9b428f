import SourceCanvas.Diagnostic
import SourceCanvas.Graph.Convert
import SourceCanvas.Store.Basic

/-!
# Sessions

A session holds a text and the graph that stands for it. It is idle, or it applies a change of the
text or of the graph; while it applies one it refuses all others, so that a change that follows from
another one starts nothing anew. Whoever listens to a session may give it commands while being told
about an event.

`Act` is what can be done in a session: it changes the session and may fail, and a failure keeps the
changes made before it.
-/

namespace SourceCanvas

/-! ## Commands -/

/-- Which side of a session is being applied. -/
inductive Phase where
  | idle
  | applyingText
  | applyingGraph
  deriving DecidableEq, Repr

/-- The name of a phase. -/
def Phase.name : Phase → String
  | .idle => "idle"
  | .applyingText => "applying_text_change"
  | .applyingGraph => "applying_graph_change"

/-- What listeners are told about. -/
inductive Event where
  | text
  | graph
  | notice
  deriving DecidableEq, Repr

/-- The name of an event. -/
def Event.name : Event → String
  | .text => "text"
  | .graph => "graph"
  | .notice => "notice"

/-- A change of the text. -/
inductive TextEdit where
  | whole (text : String)
  | append (text : String)
  | replace (old new : String)
  deriving DecidableEq

/-- What a session can be told to do. Ids may be references. -/
inductive Command where
  | changeText (edit : TextEdit)
  | addNode (kind : String) (position : Point) (parent : Option String)
  | removeNode (id : String)
  | moveNode (id : String) (position : Point)
  | connect (source target : String) (sourceHandle targetHandle : Option String)
  | disconnect (id : String)
  | update (id : String) (changes : Json.Fields)
  | loadFlow
  | diagnose
  /-- starts a new session with the same store -/
  | restart
  /-- a call of the store that passes by the session -/
  | callStore (call : StoreCall)
  deriving DecidableEq

/-- What comes of a command. -/
inductive Outcome where
  | done
  | flag (value : Bool)
  | id (id : Option String)
  | findings (byNode : Catalog (List Diagnostic))
  | reply (reply : StoreReply)
  deriving DecidableEq

/-! ## State -/

/-- A message for the user about a step that failed. -/
structure Notice where
  message : String
  source : String
  offset : Option Nat := none
  deriving DecidableEq, Repr

/-- An event, the phase in which it came, and what came of the commands of its listener. -/
structure EventRecord where
  event : Event
  phase : Phase
  inner : Option (List (Except Fault Outcome)) := none

/-- Where diagnostics come from. -/
inductive Checker where
  | absent
  | lexer
  | fixed (diagnostics : List Diagnostic)
  | broken
  deriving DecidableEq

/-- The diagnostics of a text. -/
def Checker.check (checker : Checker) (text : String) : Except Fault (List Diagnostic) :=
  match checker with
  | absent => .ok []
  | lexer => .ok (Diagnostic.ofText text)
  | fixed diagnostics => .ok diagnostics
  | broken => .error (.diagnostics (.because "no compiler"))

/-- What a session is started with. -/
structure Setup where
  settings : Settings := {}
  flow : Option String := none
  checker : Checker := .absent
  layoutFails : Bool := false
  writerFails : Bool := false
  /-- the commands that are given on an event -/
  listeners : List (Event × List Command) := []

/-- What was last stored of a node. -/
structure NodeSnapshot where
  payload : Json
  position : Point
  deriving DecidableEq

/-- A session. -/
structure Session where
  setup : Setup
  storage : Option Storage := none
  supply : Supply := {}
  phase : Phase := .idle
  text : String := ""
  graph : Graph := {}
  notices : List Notice := []
  /-- the records of the nodes, by their ids in the graph -/
  nodeRecords : Catalog String := []
  /-- the records of the edges, by their ids in the graph -/
  edgeRecords : Catalog String := []
  nodeSnapshots : Catalog NodeSnapshot := []
  edgeSnapshots : Catalog Json := []
  /-- all events, the latest last -/
  log : List EventRecord := []

/-- What can be done in a session. -/
abbrev Act := ExceptT Fault (StateM Session)

/-- What happens when listeners are told about an event. -/
abbrev Listener := Event → StateM Session Unit

namespace Session

/-! ## Notices -/

/-- Keeps a notice and tells about it. -/
def notify (tell : Listener) (notice : Notice) : StateM Session Unit := do
  modify fun session => { session with notices := session.notices ++ [notice] }
  tell .notice

/-- The notice of a collaborator that failed. -/
def failureNotice (collaborator : Collaborator) (fault : Fault) : Notice :=
  { message := collaborator.name ++ " unavailable: " ++ fault.message
    source := collaborator.name }

/-- Does what needs a collaborator, and turns a failure into a notice. -/
def attempt (tell : Listener) (collaborator : Collaborator) (act : Act Unit) :
    StateM Session Unit := do
  match ← act.run with
  | .ok () => pure ()
  | .error fault => notify tell (failureNotice collaborator fault)

/-! ## Phases -/

/-- Does something in a phase; the session is idle afterwards, also after a failure. -/
def during {α : Type} (phase : Phase) (act : Act α) : Act α := do
  modify fun session => { session with phase }
  let result ← ExceptT.lift act.run
  modify fun session => { session with phase := .idle }
  match result with
  | .ok value => return value
  | .error fault => throw fault

/-! ## The store -/

/-- Asks the store. Where there is none, nothing happens. -/
def ask (call : StoreCall) : Act StoreReply := do
  let session ← get
  match session.storage with
  | none => return .done
  | some storage =>
    let (reply, storage, supply) := storage.perform session.supply call
    set { session with storage := some storage, supply }
    match reply with
    | .ok reply => return reply
    | .error fault => throw fault

/-- The storage for a session: the one kept from before, or the one that the settings name. -/
def chooseStorage (settings : Settings) (kept : Option Storage) : Except Fault (Option Storage) :=
  match kept with
  | some storage => .ok (some storage)
  | none => do
    match ← settings.storeChoice with
    | some (.table ":memory:") => return some { store := .database (.opened {}) }
    | some (.table _) => return some { store := .database (.inFile {}) }
    | some (.remote _ _) | none => return none

/-- A new session. A store that cannot be opened leaves a notice. -/
def start (setup : Setup) (kept : Option Storage) (supply : Supply) : Session :=
  match chooseStorage setup.settings kept with
  | .ok storage => { setup, storage, supply }
  | .error fault => { setup, supply, notices := [failureNotice .persistence fault] }

/-- A new session with the same setup and store. The events so far are kept. -/
def restarted (session : Session) : Session :=
  { start session.setup session.storage session.supply with log := session.log }

end Session

end SourceCanvas
