import SourceCanvas.Proofs.SessionLaws

/-!
# Steps of a session

What the steps of a session do to the text and the graph, whether or not calls of the store fail
(`SamePicture`), and what they do to the ledger if none fails (`Troubled`).
-/

namespace SourceCanvas

open Session

/-! ## Pictures -/

/-- Two sessions have the same text and graph, in the same phase. No notice is lost from one to the
other. -/
structure SamePicture (session session' : Session) : Prop where
  setup : session'.setup = session.setup
  phase : session'.phase = session.phase
  text : session'.text = session.text
  graph : session'.graph = session.graph
  notices : session.notices ⊆ session'.notices

namespace SamePicture

variable {session session' session'' : Session}

theorem refl (session : Session) : SamePicture session session :=
  ⟨rfl, rfl, rfl, rfl, fun _ member => member⟩

theorem trans (first : SamePicture session session') (second : SamePicture session' session'') :
    SamePicture session session'' where
  setup := second.setup.trans first.setup
  phase := second.phase.trans first.phase
  text := second.text.trans first.text
  graph := second.graph.trans first.graph
  notices := fun _ member => second.notices (first.notices member)

end SamePicture

theorem SameCanvas.picture {session session' : Session} (same : SameCanvas session session') :
    SamePicture session session' where
  setup := same.setup
  phase := same.phase
  text := same.text
  graph := same.graph
  notices := by
    rw [same.notices]
    exact fun _ member => member

theorem Echo.picture {session session' : Session} (echo : Echo session session') :
    SamePicture session session' where
  setup := echo.setup
  phase := echo.phase
  text := echo.text
  graph := echo.graph
  notices := by
    obtain ⟨heard, same, -⟩ := echo.notices
    rw [same]
    exact List.subset_append_left ..

/-- A session is applying a change, and its listeners give no other commands than what the session
does itself. -/
structure Engaged (session : Session) : Prop where
  busy : session.phase ≠ .idle
  listeners : session.setup.OperatesOnly

theorem Engaged.of_same {session session' : Session} (engaged : Engaged session)
    (same : SamePicture session session') : Engaged session' where
  busy := same.phase ▸ engaged.busy
  listeners := same.setup ▸ engaged.listeners

theorem Engaged.withGraph {session : Session} (engaged : Engaged session) (graph : Graph) :
    Engaged { session with graph } := ⟨engaged.busy, engaged.listeners⟩

theorem Engaged.withText {session : Session} (engaged : Engaged session) (text : String) :
    Engaged { session with text } := ⟨engaged.busy, engaged.listeners⟩

/-- A session has told that a call of the store failed. -/
def Troubled (session : Session) : Prop :=
  ∃ notice ∈ session.notices, notice.source = Collaborator.persistence.name

theorem Troubled.mono {session session' : Session} (troubled : Troubled session)
    (kept : session.notices ⊆ session'.notices) : Troubled session' := by
  obtain ⟨notice, told, source⟩ := troubled
  exact ⟨notice, kept told, source⟩

/-! ## Attempts -/

section Attempts

variable {tell : Listener} {session : Session} {act : Act Unit}

theorem attempt_eq (tell : Listener) (collaborator : Collaborator) (act : Act Unit)
    (session : Session) :
    attempt tell collaborator act session = match act.on session with
      | (.ok (), after) => ((), after)
      | (.error fault, after) => notify tell (failureNotice collaborator fault) after := by
  unfold attempt
  have run : act.run = act.on := rfl
  simp only [bind, StateT.bind, run]
  cases act.on session with
  | mk result after => cases result <;> rfl

/-- A notice is kept and told, and nothing else happens. -/
theorem picture_notify (quiet : Quiet tell) (engaged : Engaged session) (notice : Notice) :
    SamePicture session (notify tell notice session).2 ∧
      (∃ heard, (notify tell notice session).2.notices = session.notices ++ notice :: heard ∧
        ∀ other ∈ heard, other.OfDiagnostics ∧ session.setup.Gives .diagnose) ∧
      (notify tell notice session).2.storage = session.storage ∧
      (notify tell notice session).2.ledger? = session.ledger? := by
  have told := quiet .notice { session with notices := session.notices ++ [notice] }
    engaged.busy engaged.listeners
  obtain ⟨heard, same, about⟩ := told.notices
  have notices : (notify tell notice session).2.notices = session.notices ++ notice :: heard := by
    rw [List.append_cons]
    exact same
  refine ⟨⟨told.setup, told.phase, told.text, told.graph, ?_⟩, ⟨heard, notices, about⟩,
    told.storage, told.ledger⟩
  rw [notices]
  exact List.subset_append_left ..

theorem picture_attempt (collaborator : Collaborator) (quiet : Quiet tell)
    (engaged : Engaged session) (keeps : act.KeepsCanvas) :
    SamePicture session (attempt tell collaborator act session).2 := by
  have kept := (keeps session).picture
  rw [attempt_eq]
  cases done : act.on session with
  | mk result after =>
    rw [done] at kept
    cases result with
    | ok => exact kept
    | error fault => exact kept.trans (picture_notify quiet (engaged.of_same kept) _).1

/-- An attempt that does not end in trouble succeeds. -/
theorem attempt_calm (quiet : Quiet tell) (engaged : Engaged session) (keeps : act.KeepsCanvas)
    (calm : ¬Troubled (attempt tell .persistence act session).2) :
    act.on session = (.ok (), (attempt tell .persistence act session).2) := by
  have kept := (keeps session).picture
  rw [attempt_eq] at calm ⊢
  cases done : act.on session with
  | mk result after =>
    rw [done] at kept calm
    cases result with
    | ok => rfl
    | error fault =>
      obtain ⟨-, ⟨heard, notices, -⟩, -⟩ := picture_notify quiet (engaged.of_same kept)
        (failureNotice .persistence fault)
      refine absurd ⟨failureNotice .persistence fault, ?_, rfl⟩ calm
      show _ ∈ (notify tell (failureNotice .persistence fault) after).2.notices
      rw [notices]
      exact List.mem_append_right _ List.mem_cons_self

end Attempts

/-! ## Saving -/

section Saving

variable {tell : Listener} {session : Session} {ledger : Ledger}

theorem picture_saveGraph (quiet : Quiet tell) (engaged : Engaged session) :
    SamePicture session (saveGraph tell session).2 := by
  have step : saveGraph tell session =
      (if session.isStored then attempt tell .persistence writeDifferences else pure ()) session :=
    rfl
  rw [step]
  split
  · exact picture_attempt .persistence quiet engaged Act.keepsCanvas_writeDifferences
  · exact .refl session

/-- The act of keeping the text of a flow. -/
theorem keepsCanvas_preview (call : StoreCall) :
    Act.KeepsCanvas (do let _ ← ask call) := fun session =>
  Act.sameCanvas_bind (Act.keepsCanvas_ask call session) fun _ between _ => .refl between

theorem picture_saveText (quiet : Quiet tell) (engaged : Engaged session) (text : String) :
    SamePicture session (saveText tell text session).2 := by
  have step : saveText tell text session =
      (if session.isStored then
        attempt tell .persistence do let _ ← ask (.updatePreview session.setup.flow (some text))
      else pure ()) session := rfl
  rw [step]
  split
  · exact picture_attempt .persistence quiet engaged (keepsCanvas_preview _)
  · exact .refl session

/-- Saving that does not end in trouble writes all differences. -/
theorem saveGraph_calm (quiet : Quiet tell) (engaged : Engaged session)
    (stored : session.isStored = true) (calm : ¬Troubled (saveGraph tell session).2) :
    writeDifferences.on session = (.ok (), (saveGraph tell session).2) := by
  have step : saveGraph tell session =
      (if session.isStored then attempt tell .persistence writeDifferences else pure ()) session :=
    rfl
  rw [step, if_pos stored] at calm ⊢
  exact attempt_calm quiet engaged Act.keepsCanvas_writeDifferences calm

theorem saveText_calm (quiet : Quiet tell) (engaged : Engaged session)
    (kept : session.ledger? = some ledger) (text : String)
    (calm : ¬Troubled (saveText tell text session).2) :
    SameCanvas session (saveText tell text session).2 ∧
      ∃ ledger', (saveText tell text session).2.ledger? = some ledger' ∧
        (ledger' = ledger ∨ ∃ reply store, ledger' = { ledger with store } ∧
          ledger.store.perform ledger.fresh (.updatePreview session.setup.flow (some text)) =
            (.ok reply, store)) := by
  have step : saveText tell text session =
      (if session.isStored then
        attempt tell .persistence do let _ ← ask (.updatePreview session.setup.flow (some text))
      else pure ()) session := rfl
  rw [step] at calm ⊢
  split
  · next stored =>
    rw [if_pos stored] at calm
    have done := attempt_calm quiet engaged (keepsCanvas_preview _) calm
    have same := keepsCanvas_preview (.updatePreview session.setup.flow (some text)) session
    rw [done] at same
    refine ⟨same, ?_⟩
    obtain ⟨reply, between, asked, rest⟩ := Act.on_bind_ok done
    cases rest
    obtain ⟨store, answered, kept'⟩ := Act.ledger_ask kept asked
    exact ⟨_, kept', .inr ⟨reply, store, rfl, answered⟩⟩
  · exact ⟨.refl session, ledger, kept, .inl rfl⟩

end Saving

/-! ## Moving records -/

section Moving

variable {tell : Listener} {session : Session} {ledger : Ledger}

theorem dropRecord_eq (tell : Listener) (id : String) (session : Session) :
    dropRecord tell id session =
      attempt tell .persistence (do let _ ← ask (.removeNode (session.nodeRecords.get? id)))
        { session with nodeRecords := session.nodeRecords.erase id } := rfl

theorem picture_dropRecord (quiet : Quiet tell) (engaged : Engaged session) (id : String) :
    SamePicture session (dropRecord tell id session).2 := by
  have engaged' : Engaged { session with nodeRecords := session.nodeRecords.erase id } :=
    ⟨engaged.busy, engaged.listeners⟩
  have same := picture_attempt .persistence quiet engaged'
    (keepsCanvas_preview (.removeNode (session.nodeRecords.get? id)))
  rw [dropRecord_eq]
  exact ⟨same.setup, same.phase, same.text, same.graph, same.notices⟩

theorem dropRecord_calm (quiet : Quiet tell) (engaged : Engaged session)
    (kept : session.ledger? = some ledger) (id : String)
    (calm : ¬Troubled (dropRecord tell id session).2) :
    SameCanvas session (dropRecord tell id session).2 ∧
      ∃ reply store, ledger.store.perform ledger.fresh
          (.removeNode (ledger.nodeRecords.get? id)) = (.ok reply, store) ∧
        (dropRecord tell id session).2.ledger? =
          some { ledger with store, nodeRecords := ledger.nodeRecords.erase id } := by
  obtain ⟨storage, stored, rfl⟩ := Option.map_eq_some_iff.mp kept
  have engaged' : Engaged { session with nodeRecords := session.nodeRecords.erase id } :=
    ⟨engaged.busy, engaged.listeners⟩
  rw [dropRecord_eq] at calm ⊢
  have done := attempt_calm quiet engaged' (keepsCanvas_preview _) calm
  have same := keepsCanvas_preview (.removeNode (session.nodeRecords.get? id))
    { session with nodeRecords := session.nodeRecords.erase id }
  rw [done] at same
  refine ⟨⟨same.setup, same.phase, same.text, same.graph, same.notices, same.stored⟩, ?_⟩
  obtain ⟨reply, between, asked, rest⟩ := Act.on_bind_ok done
  cases rest
  have kept' : Session.ledger? { session with nodeRecords := session.nodeRecords.erase id } =
      some _ := ledger_modify (fun ledger => { ledger with
        nodeRecords := ledger.nodeRecords.erase id }) kept rfl fun _ => rfl
  obtain ⟨store, answered, kept''⟩ := Act.ledger_ask kept' asked
  exact ⟨reply, store, answered, kept''⟩

/-- What dropping the records of some ids does to a ledger, call by call. -/
inductive Ledger.Drops : List String → Ledger → Ledger → Prop
  | nil (ledger : Ledger) : Drops [] ledger ledger
  | cons {id : String} {ids : List String} {ledger ledger' : Ledger} {reply : StoreReply}
      {store : Store}
      (answered : ledger.store.perform ledger.fresh (.removeNode (ledger.nodeRecords.get? id)) =
        (.ok reply, store))
      (rest : Drops ids { ledger with store, nodeRecords := ledger.nodeRecords.erase id } ledger') :
      Drops (id :: ids) ledger ledger'

theorem picture_dropRecords (quiet : Quiet tell) (engaged : Engaged session) (ids : List String) :
    SamePicture session (ids.forM (dropRecord tell) session).2 := by
  induction ids generalizing session with
  | nil => exact .refl session
  | cons id rest ih =>
    have first := picture_dropRecord quiet engaged id
    exact first.trans (ih (engaged.of_same first))

theorem dropRecords_calm (quiet : Quiet tell) (engaged : Engaged session)
    (kept : session.ledger? = some ledger) (ids : List String)
    (calm : ¬Troubled (ids.forM (dropRecord tell) session).2) :
    SameCanvas session (ids.forM (dropRecord tell) session).2 ∧
      ∃ ledger', (ids.forM (dropRecord tell) session).2.ledger? = some ledger' ∧
        ledger.Drops ids ledger' := by
  induction ids generalizing session ledger with
  | nil => exact ⟨.refl session, ledger, kept, .nil ledger⟩
  | cons id rest ih =>
    have first := picture_dropRecord quiet engaged id
    have later := picture_dropRecords quiet (engaged.of_same first) rest
    have calm' : ¬Troubled (dropRecord tell id session).2 := fun troubled =>
      calm (troubled.mono later.notices)
    obtain ⟨same, reply, store, answered, kept'⟩ := dropRecord_calm quiet engaged kept id calm'
    obtain ⟨same', ledger', kept'', drops⟩ := ih (engaged.of_same first) kept' calm
    exact ⟨same.trans same', ledger', kept'', .cons answered drops⟩

/-- The names of the recorded nodes whose ids are taken over. -/
def leaving (records renamed : Catalog String) : List String :=
  records.names.filter fun id =>
    (renamed.names ++ renamed.map (·.2)).contains id && !renamed.has id

theorem moveRecords_eq (tell : Listener) (renamed : Catalog String) (session : Session) :
    (moveRecords tell renamed session).2 =
      let dropped := ((leaving session.nodeRecords renamed).forM (dropRecord tell) session).2
      { dropped with
        nodeRecords := Catalog.ofList
          (dropped.nodeRecords.map fun (id, record) => (Graph.newId renamed id, record))
        nodeSnapshots := dropped.nodeSnapshots.filter fun entry =>
          !(renamed.names ++ renamed.map (·.2)).contains entry.1 } := rfl

theorem picture_moveRecords (quiet : Quiet tell) (engaged : Engaged session)
    (renamed : Catalog String) : SamePicture session (moveRecords tell renamed session).2 := by
  have dropped := picture_dropRecords quiet engaged (leaving session.nodeRecords renamed)
  rw [moveRecords_eq]
  exact ⟨dropped.setup, dropped.phase, dropped.text, dropped.graph, dropped.notices⟩

/-- A ledger with its records under new ids. -/
def Ledger.rename (renamed : Catalog String) (ledger : Ledger) : Ledger :=
  { ledger with
    nodeRecords := Catalog.ofList
      (ledger.nodeRecords.map fun (id, record) => (Graph.newId renamed id, record))
    nodeSnapshots := ledger.nodeSnapshots.filter fun entry =>
      !(renamed.names ++ renamed.map (·.2)).contains entry.1 }

theorem moveRecords_calm (quiet : Quiet tell) (engaged : Engaged session)
    (kept : session.ledger? = some ledger) (renamed : Catalog String)
    (calm : ¬Troubled (moveRecords tell renamed session).2) :
    SameCanvas session (moveRecords tell renamed session).2 ∧
      ∃ ledger', ledger.Drops (leaving ledger.nodeRecords renamed) ledger' ∧
        (moveRecords tell renamed session).2.ledger? = some (ledger'.rename renamed) := by
  rw [moveRecords_eq] at calm ⊢
  obtain ⟨same, ledger', kept', drops⟩ :=
    dropRecords_calm quiet engaged kept (leaving session.nodeRecords renamed) calm
  obtain ⟨storage, stored, rfl⟩ := Option.map_eq_some_iff.mp kept
  refine ⟨⟨same.setup, same.phase, same.text, same.graph, same.notices, same.stored⟩, ledger',
    drops, ?_⟩
  exact ledger_modify (Ledger.rename renamed) kept' rfl fun _ => rfl

end Moving

/-! ## Writing the text -/

section Writing

variable {tell : Listener} {session : Session} {ledger : Ledger} {program : Program}

theorem settleGraph_eq (tell : Listener) (program : Program) (session : Session) :
    settleGraph tell program session =
      let settled := settle session.setup.settings.reclassify program session.graph
      if settled.2.isEmpty then ([], { session with graph := settled.1 })
      else (settled.2, (moveRecords tell settled.2 { session with graph := settled.1 }).2) := by
  have step : settleGraph tell program session =
      (let settled := settle session.setup.settings.reclassify program session.graph
      if settled.2.isEmpty then pure [] else do
        moveRecords tell settled.2
        return settled.2 : StateM Session (Catalog String)) { session with
          graph := (settle session.setup.settings.reclassify program session.graph).1 } := rfl
  rw [step]
  dsimp only
  split <;> rfl

theorem takeText_eq (tell : Listener) (text : String) (session : Session) :
    (takeText tell text session).2 =
      if text = session.text then session
      else (tell .text (saveText tell text { session with text }).2).2 := by
  have step : takeText tell text session = (if text = session.text then pure () else do
      set { session with text }
      saveText tell text
      tell .text : StateM Session Unit) session := rfl
  rw [step]
  split <;> rfl

theorem writeText_eq (tell : Listener) (session : Session) :
    writeText tell session = match session.writing? session.graph with
      | none => ([], session)
      | some program =>
        let settled := settleGraph tell program session
        (settled.1, (takeText tell program.text settled.2).2) := by
  have step : writeText tell session = (match session.writing? session.graph with
      | none => pure []
      | some program => do
        let renamed ← settleGraph tell program
        takeText tell program.text
        return renamed : StateM Session (Catalog String)) session := rfl
  rw [step]
  cases session.writing? session.graph <;> rfl

/-- Keeping a text in the store at most changes the store. -/
def Ledger.Notes (flow : Option String) (text : String) (ledger ledger' : Ledger) : Prop :=
  ledger' = ledger ∨ ∃ reply store, ledger' = { ledger with store } ∧
    ledger.store.perform ledger.fresh (.updatePreview flow (some text)) = (.ok reply, store)

/-- Records are moved to new ids, if there are any. -/
def Ledger.Moves (renamed : Catalog String) (ledger ledger' : Ledger) : Prop :=
  renamed = [] ∧ ledger' = ledger ∨ ∃ dropped, ledger.Drops (leaving ledger.nodeRecords renamed)
    dropped ∧ ledger' = dropped.rename renamed

theorem picture_settleGraph (quiet : Quiet tell) (engaged : Engaged session) (program : Program) :
    SamePicture { session with
        graph := (settle session.setup.settings.reclassify program session.graph).1 }
      (settleGraph tell program session).2 := by
  rw [settleGraph_eq]
  dsimp only
  split
  · exact .refl _
  · exact picture_moveRecords quiet (engaged.withGraph _) _

theorem settleGraph_calm (quiet : Quiet tell) (engaged : Engaged session)
    (kept : session.ledger? = some ledger) (program : Program)
    (calm : ¬Troubled (settleGraph tell program session).2) :
    ∃ ledger', (settleGraph tell program session).2.ledger? = some ledger' ∧
      ledger.Moves (settle session.setup.settings.reclassify program session.graph).2 ledger' := by
  rw [settleGraph_eq] at calm ⊢
  dsimp only at calm ⊢
  split
  · next none => exact ⟨ledger, kept, .inl ⟨List.isEmpty_iff.mp none, rfl⟩⟩
  · next renames =>
    rw [if_neg renames] at calm
    have kept' : Session.ledger? { session with
        graph := (settle session.setup.settings.reclassify program session.graph).1 } =
      some ledger := kept
    obtain ⟨-, dropped, drops, kept''⟩ :=
      moveRecords_calm quiet (engaged.withGraph _) kept' _ calm
    exact ⟨_, kept'', .inr ⟨dropped, drops, rfl⟩⟩

theorem picture_takeText (quiet : Quiet tell) (engaged : Engaged session) (text : String) :
    SamePicture { session with text } (takeText tell text session).2 := by
  rw [takeText_eq]
  split
  · next same =>
    rw [same]
    exact .refl session
  · have saved := picture_saveText quiet (engaged.withText text) text
    have engaged' := (engaged.withText text).of_same saved
    have told := quiet .text _ engaged'.busy engaged'.listeners
    exact saved.trans told.picture

theorem takeText_calm (quiet : Quiet tell) (engaged : Engaged session)
    (kept : session.ledger? = some ledger) (text : String)
    (calm : ¬Troubled (takeText tell text session).2) :
    ∃ ledger', (takeText tell text session).2.ledger? = some ledger' ∧
      ledger.Notes session.setup.flow text ledger' := by
  rw [takeText_eq] at calm ⊢
  split
  · exact ⟨ledger, kept, .inl rfl⟩
  · next other =>
    rw [if_neg other] at calm
    have saved := picture_saveText quiet (engaged.withText text) text
    have engaged' := (engaged.withText text).of_same saved
    have told := quiet .text _ engaged'.busy engaged'.listeners
    obtain ⟨-, ledger', kept', notes⟩ := saveText_calm quiet (engaged.withText text) kept text
      fun troubled => calm (troubled.mono told.picture.notices)
    exact ⟨ledger', told.ledger.trans kept', notes⟩

/-- What writing a text does to the text and the graph. -/
structure Writes (program : Program) (session session' : Session) : Prop where
  setup : session'.setup = session.setup
  phase : session'.phase = session.phase
  text : session'.text = program.text
  graph : session'.graph = (settle session.setup.settings.reclassify program session.graph).1
  notices : session.notices ⊆ session'.notices

theorem writes_writeText (quiet : Quiet tell) (engaged : Engaged session)
    (written : session.writing? session.graph = some program) :
    Writes program session (writeText tell session).2 := by
  have first := picture_settleGraph quiet engaged program
  have engaged' := (engaged.withGraph _).of_same first
  have second := picture_takeText quiet engaged' program.text
  rw [writeText_eq, written]
  exact {
    setup := second.setup.trans first.setup
    phase := second.phase.trans first.phase
    text := second.text
    graph := second.graph.trans first.graph
    notices := fun _ member => second.notices (first.notices member) }

theorem writeText_calm (quiet : Quiet tell) (engaged : Engaged session)
    (kept : session.ledger? = some ledger)
    (written : session.writing? session.graph = some program)
    (calm : ¬Troubled (writeText tell session).2) :
    ∃ moved noted, (writeText tell session).2.ledger? = some noted ∧
      ledger.Moves (settle session.setup.settings.reclassify program session.graph).2 moved ∧
      moved.Notes session.setup.flow program.text noted := by
  have first := picture_settleGraph quiet engaged program
  have engaged' := (engaged.withGraph _).of_same first
  have second := picture_takeText quiet engaged' program.text
  rw [writeText_eq, written] at calm ⊢
  obtain ⟨moved, kept', moves⟩ := settleGraph_calm quiet engaged kept program
    fun troubled => calm (troubled.mono second.notices)
  obtain ⟨noted, kept'', notes⟩ := takeText_calm quiet engaged' kept' program.text calm
  exact ⟨moved, noted, kept'', moves, first.setup ▸ notes⟩

end Writing

/-! ## Following a text -/

section Following

variable {tell : Listener} {session : Session}

theorem picture_computeLayout (quiet : Quiet tell) (engaged : Engaged session) (graph : Graph) :
    SamePicture session (computeLayout tell graph session).2 ∧
      (computeLayout tell graph session).2.ledger? = session.ledger? := by
  have step : computeLayout tell graph session =
      (if session.setup.layoutFails then do
        notify tell (failureNotice .layout (.collaborator ⟨.layout, .because "no layout"⟩))
        return []
      else
        _ : StateM Session (Catalog Point)) session := rfl
  rw [step]
  split
  · have noticed := picture_notify quiet engaged
      (failureNotice .layout (.collaborator ⟨.layout, .because "no layout"⟩))
    exact ⟨noticed.1, noticed.2.2.2⟩
  · exact ⟨.refl session, rfl⟩

theorem picture_newPositions (quiet : Quiet tell) (engaged : Engaged session) (fresh : Graph) :
    SamePicture session (newPositions (computeLayout tell) fresh session).2 ∧
      (newPositions (computeLayout tell) fresh session).2.ledger? = session.ledger? := by
  have step : newPositions (computeLayout tell) fresh session =
      (if fresh.sameTopology session.graph then pure [] else computeLayout tell fresh) session :=
    rfl
  rw [step]
  split
  · exact ⟨.refl session, rfl⟩
  · exact picture_computeLayout quiet engaged fresh

/-- Merging takes over the parsed nodes, with some positions. -/
theorem picture_mergeNodes (quiet : Quiet tell) (engaged : Engaged session) (nodes : List Node) :
    ∃ positions, SamePicture
        { session with graph := session.graph.merge (.ofNodes nodes []) positions }
        (mergeNodes (computeLayout tell) nodes session).2 ∧
      (mergeNodes (computeLayout tell) nodes session).2.ledger? = session.ledger? := by
  have step : (mergeNodes (computeLayout tell) nodes session).2 =
      (let placed := newPositions (computeLayout tell) (.ofNodes nodes []) session
      { placed.2 with graph := placed.2.graph.merge (.ofNodes nodes []) placed.1 }) := rfl
  obtain ⟨same, ledger⟩ := picture_newPositions quiet engaged (.ofNodes nodes [])
  rw [step]
  refine ⟨(newPositions (computeLayout tell) (.ofNodes nodes []) session).1,
    ⟨same.setup, same.phase, same.text, ?_, same.notices⟩, ledger⟩
  dsimp only
  rw [same.graph]

theorem followText_eq (layout : LayoutEngine) (tell : Listener) (text : String)
    (session : Session) :
    followText layout tell text session =
      match parse session.setup.settings.reclassify text with
      | .error error =>
        (false, (notify tell
          { message := error.message, source := "parser", offset := some error.offset }
          { session with text }).2)
      | .ok nodes =>
        (true, (tell .graph (saveText tell text (saveGraph tell
          (mergeNodes layout nodes { session with text }).2).2).2).2) := by
  have step : followText layout tell text session =
      (match parse session.setup.settings.reclassify text with
      | .error error => do
        notify tell { message := error.message, source := "parser", offset := some error.offset }
        return false
      | .ok nodes => do
        mergeNodes layout nodes
        saveGraph tell
        saveText tell text
        tell .graph
        return true : StateM Session Bool) { session with text } := rfl
  rw [step]
  cases parse session.setup.settings.reclassify text <;> rfl

theorem changeTextWith_eq (layout : LayoutEngine) (tell : Listener) (text : String)
    (session : Session) (idle : session.phase = .idle) (other : text ≠ session.text) :
    (changeTextWith layout tell text).on session =
      (.ok (followText layout tell text { session with phase := .applyingText }).1,
        { (followText layout tell text { session with phase := .applyingText }).2 with
          phase := .idle }) := by
  unfold changeTextWith
  rw [Act.on_get, if_neg (fun refused => refused.elim (fun busy => busy idle) other), Act.on_during]
  rfl

end Following

/-! ## Changes -/

section Changes

variable {tell : Listener} {session : Session} {change : GraphChange}

/-- A session in which a change of the graph has begun. -/
def begun (session : Session) (change : GraphChange) : Session :=
  { session with phase := .applyingGraph, graph := (change session.graph).1 }

theorem changeGraph_idle (tell : Listener) (change : GraphChange) (idle : session.phase = .idle) :
    (changeGraph tell change).on session = match (change session.graph).2 with
      | .error fault => (.error fault, { begun session change with phase := .idle })
      | .ok .refused => (.ok none, { begun session change with phase := .idle })
      | .ok .silent =>
        (.ok (some []), { (tell .graph (saveGraph tell (begun session change)).2).2 with
          phase := .idle })
      | .ok .visible =>
        (.ok (some (writeText tell (begun session change)).1),
          { (tell .graph (saveGraph tell (writeText tell (begun session change)).2).2).2 with
            phase := .idle }) := by
  unfold changeGraph
  rw [Act.on_get, if_neg (fun busy => busy idle), Act.on_during, Act.on_get]
  dsimp only
  rw [Act.on_modify]
  dsimp only
  cases (change session.graph).2 with
  | error fault => rfl
  | ok impact =>
    cases impact with
    | refused => rfl
    | silent =>
      dsimp only
      rw [Act.on_liftM, Act.on_liftM]
      rfl
    | visible =>
      dsimp only
      rw [Act.on_liftM, Act.on_liftM, Act.on_liftM]
      rfl

end Changes

/-! ## What an edit comes to -/

/-- Saving a graph turns a ledger into another one. -/
def Ledger.Saves (flow : Option String) (graph : Graph) (ledger ledger' : Ledger) : Prop :=
  ∃ before after : Session, before.graph = graph ∧ before.setup.flow = flow ∧
    before.ledger? = some ledger ∧ writeDifferences.on before = (.ok (), after) ∧
    after.ledger? = some ledger'

/-- What an edit can come to in a session with a store whose calls do not fail: whether something has
come of it, the graph and the ledger. -/
inductive EditStep (session : Session) (ledger : Ledger) (command : Command) :
    Bool → Graph → Ledger → Prop
  /-- refused, or a text that cannot be read -/
  | refused (asks : command.change? session = none) :
    EditStep session ledger command false session.graph ledger
  /-- a change that fails, or that finds nothing to change -/
  | failed {change : GraphChange} (asks : command.change? session = some change)
    (fails : (change session.graph).2 ≠ .ok .visible) :
    EditStep session ledger command false (change session.graph).1 ledger
  /-- a text that is read and merged into the graph -/
  | text {edit : TextEdit} {nodes : List Node} {positions : Catalog Point} {saved noted : Ledger}
    (asks : command = .changeText edit)
    (parsed : parse session.setup.settings.reclassify (edit.apply session.text) = .ok nodes)
    (saves : ledger.Saves session.setup.flow
      (session.graph.merge (.ofNodes nodes []) positions) saved)
    (notes : saved.Notes session.setup.flow (edit.apply session.text) noted) :
    EditStep session ledger command true (session.graph.merge (.ofNodes nodes []) positions) noted
  /-- a change that the text does not show, or of a graph that cannot be written -/
  | kept {change : GraphChange} {impact : Impact} {saved : Ledger}
    (asks : command.change? session = some change)
    (happens : (change session.graph).2 = .ok impact)
    (unwritten : impact = .visible → session.writing? (change session.graph).1 = none)
    (saves : ledger.Saves session.setup.flow (change session.graph).1 saved) :
    EditStep session ledger command true (change session.graph).1 saved
  /-- a change that is written into the text -/
  | written {change : GraphChange} {program : Program} {moved noted saved : Ledger}
    (asks : command.change? session = some change)
    (happens : (change session.graph).2 = .ok .visible)
    (written : session.writing? (change session.graph).1 = some program)
    (moves : ledger.Moves
      (settle session.setup.settings.reclassify program (change session.graph).1).2 moved)
    (notes : moved.Notes session.setup.flow program.text noted)
    (saves : noted.Saves session.setup.flow
      (settle session.setup.settings.reclassify program (change session.graph).1).1 saved) :
    EditStep session ledger command true
      (settle session.setup.settings.reclassify program (change session.graph).1).1 saved

section Edits

variable {tell : Listener} {session : Session} {ledger : Ledger}

theorem isStored_of_ledger {flow : String} (kept : session.ledger? = some ledger)
    (named : session.setup.flow = some flow) : session.isStored = true := by
  obtain ⟨storage, stored, -⟩ := Option.map_eq_some_iff.mp kept
  rw [isStored, stored, named]
  rfl

theorem writing?_congr {session' : Session} (same : session'.setup = session.setup)
    (graph : Graph) : session'.writing? graph = session.writing? graph := by
  rw [writing?, writing?, same]

/-- Saving a graph and telling about it leaves the picture. -/
theorem picture_finish (quiet : Quiet tell) (engaged : Engaged session) :
    SamePicture session (tell .graph (saveGraph tell session).2).2 := by
  have saving := picture_saveGraph quiet engaged
  have engaged' := engaged.of_same saving
  exact saving.trans (quiet .graph _ engaged'.busy engaged'.listeners).picture

theorem saveGraph_saves {flow : String} (quiet : Quiet tell) (engaged : Engaged session)
    (kept : session.ledger? = some ledger) (named : session.setup.flow = some flow)
    (calm : ¬Troubled (saveGraph tell session).2) :
    ∃ saved, (saveGraph tell session).2.ledger? = some saved ∧
      ledger.Saves session.setup.flow session.graph saved := by
  have done := saveGraph_calm quiet engaged (isStored_of_ledger kept named) calm
  have same := Act.keepsCanvas_writeDifferences session
  rw [done] at same
  obtain ⟨storage, stored, -⟩ := Option.map_eq_some_iff.mp kept
  have stored' := same.stored
  rw [stored] at stored'
  obtain ⟨storage', found⟩ := Option.isSome_iff_exists.mp stored'
  have kept' : (saveGraph tell session).2.ledger? = some _ := congrArg (Option.map _) found
  exact ⟨_, kept', session, _, rfl, rfl, kept, done, kept'⟩

theorem finish_calm {flow : String} (quiet : Quiet tell) (engaged : Engaged session)
    (kept : session.ledger? = some ledger) (named : session.setup.flow = some flow)
    (calm : ¬Troubled (tell .graph (saveGraph tell session).2).2) :
    ∃ saved, (tell .graph (saveGraph tell session).2).2.ledger? = some saved ∧
      ledger.Saves session.setup.flow session.graph saved := by
  have engaged' := engaged.of_same (picture_saveGraph quiet engaged)
  have told := quiet .graph _ engaged'.busy engaged'.listeners
  obtain ⟨saved, kept', saves⟩ := saveGraph_saves quiet engaged kept named
    fun troubled => calm (troubled.mono told.picture.notices)
  exact ⟨saved, told.ledger.trans kept', saves⟩

/-- Whether something has come of a command. -/
def isApplied {α : Type} (applied : α → Bool) : Except Fault α → Bool
  | .ok value => applied value
  | .error _ => false

theorem isApplied_finish {α β : Type} {turn : α → β} {applied : α → Bool} {applied' : β → Bool}
    (same : ∀ value, applied' (turn value) = applied value) (result : Except Fault α × Session) :
    isApplied applied' (Act.finish turn result).1 = isApplied applied result.1 := by
  cases result with
  | mk result after =>
    cases result with
    | ok value => exact same value
    | error fault => rfl

/-- The session after an edit, with what has come of it. -/
structure Edited (session : Session) (ledger : Ledger) (command : Command) (applied : Bool)
    (session' : Session) : Prop where
  setup : session'.setup = session.setup
  phase : session'.phase = .idle
  notices : session.notices ⊆ session'.notices
  step : ∃ ledger', session'.ledger? = some ledger' ∧
    EditStep session ledger command applied session'.graph ledger'

theorem changeGraph_edited {flow : String} {change : GraphChange} {command : Command}
    (quiet : Quiet tell) (listeners : session.setup.OperatesOnly)
    (kept : session.ledger? = some ledger) (named : session.setup.flow = some flow)
    (asks : command.change? session = some change) {drawn : Session}
    (idle : drawn.phase = .idle) (echo : Echo session drawn)
    (calm : ¬Troubled ((changeGraph tell change).on drawn).2) :
    Edited session ledger command (isApplied Option.isSome ((changeGraph tell change).on drawn).1)
      ((changeGraph tell change).on drawn).2 := by
  have engaged : Engaged (begun drawn change) := ⟨by simp [begun], echo.setup ▸ listeners⟩
  have kept' : (begun drawn change).ledger? = some ledger := echo.ledger.trans kept
  have setup : (begun drawn change).setup = session.setup := echo.setup
  have named' : (begun drawn change).setup.flow = some flow := setup ▸ named
  have graph : (begun drawn change).graph = (change session.graph).1 := by
    show (change drawn.graph).1 = _
    rw [echo.graph]
  have notices : session.notices ⊆ (begun drawn change).notices := echo.picture.notices
  rw [changeGraph_idle tell change idle, echo.graph] at calm ⊢
  cases happens : (change session.graph).2 with
  | error fault =>
    exact ⟨setup, rfl, notices, ledger, kept', graph ▸ .failed asks (by simp [happens])⟩
  | ok impact =>
    rw [happens] at calm
    cases impact with
    | refused =>
      exact ⟨setup, rfl, notices, ledger, kept', graph ▸ .failed asks (by simp [happens])⟩
    | silent =>
      have same := picture_finish quiet engaged
      obtain ⟨saved, savedLedger, saves⟩ := finish_calm quiet engaged kept' named' calm
      rw [setup, graph] at saves
      have step := EditStep.kept asks happens (fun visible => by cases visible) saves
      rw [← graph, ← same.graph] at step
      exact ⟨same.setup.trans setup, rfl, fun _ member => same.notices (notices member), saved,
        savedLedger, step⟩
    | visible =>
      have writing : (begun drawn change).writing? (begun drawn change).graph =
          session.writing? (change session.graph).1 := by
        rw [graph]
        exact writing?_congr setup _
      cases written : session.writing? (change session.graph).1 with
      | none =>
        rw [written] at writing
        have unwritten : writeText tell (begun drawn change) = ([], begun drawn change) := by
          rw [writeText_eq, writing]
        rw [unwritten] at calm ⊢
        have same := picture_finish quiet engaged
        obtain ⟨saved, savedLedger, saves⟩ := finish_calm quiet engaged kept' named' calm
        rw [setup, graph] at saves
        have step := EditStep.kept asks happens (fun _ => written) saves
        rw [← graph, ← same.graph] at step
        exact ⟨same.setup.trans setup, rfl, fun _ member => same.notices (notices member), saved,
          savedLedger, step⟩
      | some program =>
        rw [written] at writing
        have wrote := writes_writeText quiet engaged writing
        have engaged' : Engaged (writeText tell (begun drawn change)).2 :=
          ⟨wrote.phase ▸ engaged.busy, wrote.setup ▸ engaged.listeners⟩
        have same := picture_finish quiet engaged'
        obtain ⟨moved, noted, notedLedger, moves, notes⟩ := writeText_calm quiet engaged kept'
          writing fun troubled => calm (troubled.mono same.notices)
        have wroteSetup := wrote.setup.trans setup
        obtain ⟨saved, savedLedger, saves⟩ := finish_calm quiet engaged' notedLedger
          (wroteSetup ▸ named) calm
        have wroteGraph := wrote.graph
        rw [setup] at notes
        rw [setup, graph] at moves wroteGraph
        rw [wroteSetup, wroteGraph] at saves
        have step := EditStep.written asks happens written moves notes saves
        rw [← wroteGraph, ← same.graph] at step
        exact ⟨same.setup.trans wroteSetup, rfl,
          fun _ member => same.notices (wrote.notices (notices member)), saved, savedLedger, step⟩

theorem changeText_edited {flow : String} {edit : TextEdit} (quiet : Quiet tell)
    (idle : session.phase = .idle) (listeners : session.setup.OperatesOnly)
    (kept : session.ledger? = some ledger) (named : session.setup.flow = some flow)
    (calm : ¬Troubled ((changeText tell (edit.apply session.text)).on session).2) :
    Edited session ledger (.changeText edit)
      (isApplied id ((changeText tell (edit.apply session.text)).on session).1)
      ((changeText tell (edit.apply session.text)).on session).2 := by
  by_cases same : edit.apply session.text = session.text
  · have refused : (changeText tell (edit.apply session.text)).on session = (.ok false, session) := by
      unfold changeText changeTextWith
      rw [Act.on_get, if_pos (.inr same)]
      rfl
    rw [refused]
    exact ⟨rfl, idle, fun _ member => member, ledger, kept, .refused rfl⟩
  · rw [changeText, changeTextWith_eq _ tell _ session idle same] at calm ⊢
    have engaged : Engaged { session with phase := .applyingText, text := edit.apply session.text } :=
      ⟨by simp, listeners⟩
    rw [followText_eq] at calm ⊢
    dsimp only at calm ⊢
    cases parsed : parse session.setup.settings.reclassify (edit.apply session.text) with
    | error error =>
      obtain ⟨noticed, -, -, sameLedger⟩ := picture_notify quiet engaged
        { message := error.message, source := "parser", offset := some error.offset }
      refine ⟨noticed.setup, rfl, noticed.notices, ledger, sameLedger.trans kept, ?_⟩
      have step : EditStep session ledger (.changeText edit) false session.graph ledger :=
        .refused rfl
      rw [← noticed.graph] at step
      exact step
    | ok nodes =>
      rw [parsed] at calm
      obtain ⟨positions, merged, mergedLedger⟩ := picture_mergeNodes quiet engaged nodes
      have engaged' := (engaged.withGraph _).of_same merged
      have saving := picture_saveGraph quiet engaged'
      have noting := picture_saveText quiet (engaged'.of_same saving) (edit.apply session.text)
      have engaged'' := (engaged'.of_same saving).of_same noting
      have told := quiet .graph _ engaged''.busy engaged''.listeners
      have same := merged.trans (saving.trans (noting.trans told.picture))
      have calm' := fun troubled => calm (Troubled.mono troubled told.picture.notices)
      have named' := (congrArg Setup.flow merged.setup).trans named
      obtain ⟨saved, savedLedger, saves⟩ := saveGraph_saves quiet engaged'
        (mergedLedger.trans kept) named' fun troubled => calm' (troubled.mono noting.notices)
      obtain ⟨-, noted, notedLedger, notes⟩ := saveText_calm quiet (engaged'.of_same saving)
        savedLedger (edit.apply session.text) calm'
      have setup : (mergeNodes (computeLayout tell) nodes { session with
          phase := .applyingText, text := edit.apply session.text }).2.setup = session.setup :=
        merged.setup
      have graph : (mergeNodes (computeLayout tell) nodes { session with
          phase := .applyingText, text := edit.apply session.text }).2.graph =
            session.graph.merge (.ofNodes nodes []) positions := merged.graph
      rw [saving.setup, setup] at notes
      rw [setup, graph] at saves
      refine ⟨same.setup, rfl, same.notices, noted, told.ledger.trans notedLedger, ?_⟩
      have step := EditStep.text rfl parsed saves notes
      rw [← graph, ← (saving.trans (noting.trans told.picture)).graph] at step
      exact step

theorem perform_edited {flow : String} {command : Command} (depth : Nat)
    (idle : session.phase = .idle) (listeners : session.setup.OperatesOnly)
    (kept : session.ledger? = some ledger) (named : session.setup.flow = some flow)
    (edit : command.isEdit = true) (calm : ¬Troubled ((perform depth command).on session).2) :
    Edited session ledger command
      (isApplied Outcome.isApplied ((perform depth command).on session).1)
      ((perform depth command).on session).2 := by
  have quiet := quiet_listener depth
  rw [perform_eq] at calm ⊢
  cases asks : command.change? session with
  | some change =>
    rw [perform_change (listener depth) asks] at calm ⊢
    have drawn := command.echo_draw session
    rw [isApplied_finish (command.isApplied_outcome session)]
    exact changeGraph_edited quiet listeners kept named asks (drawn.phase.trans idle) drawn calm
  | none =>
    rcases perform_other (listener depth) edit asks with ⟨fault, same⟩ | ⟨change, rfl, same⟩
    · rw [same]
      exact ⟨rfl, idle, fun _ member => member, ledger, kept, .refused asks⟩
    · rw [same] at calm ⊢
      have sameApplied (value : Bool) : (Outcome.flag value).isApplied = id value := rfl
      rw [isApplied_finish sameApplied]
      exact changeText_edited quiet idle listeners kept named calm

end Edits

/-! ## Runs -/

namespace Session

/-- A session after a command. -/
def next (depth : Nat) (session : Session) (command : Command) : Session :=
  ((perform depth command).on session).2

/-- Whether something comes of a command. -/
def applies (depth : Nat) (session : Session) (command : Command) : Bool :=
  isApplied Outcome.isApplied ((perform depth command).on session).1

/-- Something holds of each command of a run and the session that it is given to. -/
def Always (depth : Nat) (good : Session → Command → Prop) : Session → List Command → Prop
  | _, [] => True
  | session, command :: rest =>
    good session command ∧ Always depth good (session.next depth command) rest

end Session

end SourceCanvas
