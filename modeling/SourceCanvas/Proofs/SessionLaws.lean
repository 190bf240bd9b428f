import SourceCanvas.Session.Command

/-!
# What acts leave alone

An act in a session is looked at through what comes of it (`Act.on`). Two views of a session tell
what it leaves alone: the canvas, with the text and the graph on it (`SameCanvas`), and the ledger,
with the store and all that is known of its records (`Session.ledger?`). Saving leaves the canvas
alone; listeners, which are told while a change is being applied, leave both alone (`Quiet`).
-/

namespace SourceCanvas

open Session

/-! ## Runs of acts -/

theorem set_run (next session : Session) : (set next : StateM Session PUnit) session = (⟨⟩, next) :=
  rfl

/-- What comes of an act in a session, and the session afterwards. -/
def Act.on {α : Type} (act : Act α) (session : Session) : Except Fault α × Session := act session

namespace Act

variable {α β : Type} {act : Act α} {next : α → Act β} {session session' : Session}

theorem on_bind (act : Act α) (next : α → Act β) (session : Session) :
    (act >>= next).on session = match act.on session with
      | (.ok value, session) => (next value).on session
      | (.error fault, session) => (.error fault, session) := by
  have step : (act >>= next).on session =
      ExceptT.bindCont next (act.on session).1 (act.on session).2 := rfl
  rw [step]
  cases act.on session with
  | mk result after => cases result <;> rfl

/-- Two acts come to a value only through a value of the first. -/
theorem on_bind_ok {value : β} (done : (act >>= next).on session = (.ok value, session')) :
    ∃ middle between, act.on session = (.ok middle, between) ∧
      (next middle).on between = (.ok value, session') := by
  rw [on_bind] at done
  split at done
  · next middle between first => exact ⟨middle, between, first, done⟩
  · cases done

@[simp] theorem on_pure (value : α) : (pure value : Act α).on session = (.ok value, session) := rfl

@[simp] theorem on_get (next : Session → Act α) :
    (get >>= next).on session = (next session).on session := by
  rw [on_bind]
  rfl

@[simp] theorem on_set (next : PUnit → Act α) :
    (set session' >>= next).on session = (next ⟨⟩).on session' := by
  rw [on_bind]
  rfl

@[simp] theorem on_modify (change : Session → Session) (next : PUnit → Act α) :
    (modify change >>= next).on session = (next ⟨⟩).on (change session) := by
  rw [on_bind]
  rfl

theorem on_lift (steps : StateM Session α) (next : α → Act β) :
    Act.on (ExceptT.lift steps >>= next) session =
      (next (steps session).1).on (steps session).2 := by
  rw [on_bind]
  rfl

theorem on_liftM (steps : StateM Session α) (next : α → Act β) :
    ((liftM steps : Act α) >>= next).on session = (next (steps session).1).on (steps session).2 := by
  rw [on_bind]
  rfl

/-- What is done in a phase is done as in any other. -/
theorem on_during (phase : Phase) (act : Act α) (session : Session) :
    (during phase act).on session = ((act.on { session with phase }).1,
      { (act.on { session with phase }).2 with phase := .idle }) := by
  unfold during
  rw [on_modify, on_lift, on_modify]
  have run : act.run = act.on := rfl
  rw [run]
  cases act.on { session with phase } with
  | mk result after => cases result <;> rfl

/-- What comes of an act, turned into something else. -/
def finish (turn : α → β) (result : Except Fault α × Session) : Except Fault β × Session :=
  (result.1.map turn, result.2)

theorem on_map (act : Act α) (turn : α → β) (session : Session) :
    (act >>= fun value => pure (turn value)).on session = finish turn (act.on session) := by
  rw [on_bind]
  cases act.on session with
  | mk result after => cases result <;> rfl

theorem finish_finish {γ : Type} (turn : α → β) (again : β → γ)
    (result : Except Fault α × Session) :
    finish again (finish turn result) = finish (fun value => again (turn value)) result := by
  cases result with
  | mk result after => cases result <;> rfl

end Act

/-! ## The canvas -/

/-- Two sessions have the same text and graph, in the same phase, and have told the same notices. If
one has a store, so has the other. -/
structure SameCanvas (session session' : Session) : Prop where
  setup : session'.setup = session.setup
  phase : session'.phase = session.phase
  text : session'.text = session.text
  graph : session'.graph = session.graph
  notices : session'.notices = session.notices
  stored : session'.storage.isSome = session.storage.isSome

namespace SameCanvas

variable {session session' session'' : Session}

theorem refl (session : Session) : SameCanvas session session := ⟨rfl, rfl, rfl, rfl, rfl, rfl⟩

theorem trans (first : SameCanvas session session') (second : SameCanvas session' session'') :
    SameCanvas session session'' where
  setup := second.setup.trans first.setup
  phase := second.phase.trans first.phase
  text := second.text.trans first.text
  graph := second.graph.trans first.graph
  notices := second.notices.trans first.notices
  stored := second.stored.trans first.stored

end SameCanvas

namespace Act

/-- An act leaves the canvas alone, also if it fails. -/
def KeepsCanvas {α : Type} (act : Act α) : Prop :=
  ∀ session, SameCanvas session (act.on session).2

variable {α β : Type} {act : Act α} {next : α → Act β}

theorem sameCanvas_bind {session : Session} (first : SameCanvas session (act.on session).2)
    (second : ∀ value between, act.on session = (.ok value, between) →
      SameCanvas between ((next value).on between).2) :
    SameCanvas session ((act >>= next).on session).2 := by
  rw [on_bind]
  split
  · next value between done =>
    rw [done] at first
    exact first.trans (second value between done)
  · next fault between done =>
    rw [done] at first
    exact first

theorem keepsCanvas_forM {each : α → Act Unit} (keeps : ∀ a, (each a).KeepsCanvas) (list : List α) :
    KeepsCanvas (list.forM each) := by
  induction list with
  | nil => exact fun session => .refl session
  | cons a rest ih =>
    exact fun session => sameCanvas_bind (keeps a session) fun _ between _ => ih between

theorem on_ask_none {session : Session} (call : StoreCall) (absent : session.storage = none) :
    (ask call).on session = (.ok .done, session) := by
  unfold ask
  rw [on_get]
  simp only [absent, on_pure]

theorem on_ask_some {session : Session} {storage : Storage} (call : StoreCall)
    (kept : session.storage = some storage) :
    (ask call).on session = ((storage.perform session.supply call).1,
      { session with
        storage := some (storage.perform session.supply call).2.1
        supply := (storage.perform session.supply call).2.2 }) := by
  unfold ask
  rw [on_get]
  simp only [kept]
  cases storage.perform session.supply call with
  | mk reply rest => cases reply <;> rfl

theorem keepsCanvas_ask (call : StoreCall) : (ask call).KeepsCanvas := by
  intro session
  cases stored : session.storage with
  | none =>
    rw [on_ask_none call stored]
    exact .refl session
  | some storage =>
    rw [on_ask_some call stored]
    exact ⟨rfl, rfl, rfl, rfl, rfl, by rw [stored]; rfl⟩

theorem keepsCanvas_dropEdge (id : String) : (dropEdge id).KeepsCanvas := by
  intro session
  refine sameCanvas_bind (.refl session) ?_
  rintro _ _ ⟨⟩
  split
  · exact .refl session
  · refine sameCanvas_bind ⟨rfl, rfl, rfl, rfl, rfl, rfl⟩ ?_
    rintro _ _ ⟨⟩
    refine sameCanvas_bind (keepsCanvas_ask _ _) fun _ _ _ => ⟨rfl, rfl, rfl, rfl, rfl, rfl⟩

theorem keepsCanvas_dropNode (id : String) : (dropNode id).KeepsCanvas := by
  intro session
  refine sameCanvas_bind (.refl session) ?_
  rintro _ _ ⟨⟩
  split
  · exact .refl session
  · refine sameCanvas_bind ⟨rfl, rfl, rfl, rfl, rfl, rfl⟩ ?_
    rintro _ _ ⟨⟩
    exact sameCanvas_bind (keepsCanvas_ask _ _) fun _ _ _ => ⟨rfl, rfl, rfl, rfl, rfl, rfl⟩

theorem keepsCanvas_writeNode (node : CanvasNode) : (writeNode node).KeepsCanvas := by
  intro session
  refine sameCanvas_bind (.refl session) ?_
  rintro _ _ ⟨⟩
  split
  · exact .refl session
  · exact sameCanvas_bind (keepsCanvas_ask _ _) fun _ _ _ => ⟨rfl, rfl, rfl, rfl, rfl, rfl⟩

theorem keepsCanvas_writeEdge (edge : Edge) : (writeEdge edge).KeepsCanvas := by
  intro session
  refine sameCanvas_bind (.refl session) ?_
  rintro _ _ ⟨⟩
  split
  · exact .refl session
  · split
    · exact sameCanvas_bind (keepsCanvas_ask _ _) fun _ _ _ => ⟨rfl, rfl, rfl, rfl, rfl, rfl⟩
    · exact .refl session

theorem keepsCanvas_writeDifferences : writeDifferences.KeepsCanvas := by
  intro session
  refine sameCanvas_bind (.refl session) fun _ _ _ => ?_
  refine sameCanvas_bind (keepsCanvas_forM keepsCanvas_dropEdge _ _) fun _ _ _ => ?_
  refine sameCanvas_bind (.refl _) fun _ _ _ => ?_
  refine sameCanvas_bind (keepsCanvas_forM keepsCanvas_dropNode _ _) fun _ _ _ => ?_
  refine sameCanvas_bind (.refl _) fun _ _ _ => ?_
  refine sameCanvas_bind (keepsCanvas_forM keepsCanvas_writeNode _ _) fun _ _ _ => ?_
  refine sameCanvas_bind (.refl _) fun _ _ _ => ?_
  exact keepsCanvas_forM keepsCanvas_writeEdge _ _

end Act

/-! ## The ledger -/

/-- What a session knows of its store. -/
structure Ledger where
  store : Store
  /-- how many ids of records have been drawn -/
  drawn : Nat
  nodeRecords : Catalog String
  edgeRecords : Catalog String
  nodeSnapshots : Catalog NodeSnapshot
  edgeSnapshots : Catalog Json

/-- The id that the next fresh record gets. -/
def Ledger.fresh (ledger : Ledger) : String := Supply.idOf "a000" (ledger.drawn + 1)

/-- The ledger of a session with a store. -/
def Session.ledgerWith (session : Session) (storage : Storage) : Ledger where
  store := storage.store
  drawn := session.supply.records
  nodeRecords := session.nodeRecords
  edgeRecords := session.edgeRecords
  nodeSnapshots := session.nodeSnapshots
  edgeSnapshots := session.edgeSnapshots

/-- The ledger of a session that has a store. -/
def Session.ledger? (session : Session) : Option Ledger := session.storage.map session.ledgerWith

/-- Sessions with the same store have ledgers that differ where the sessions do. -/
theorem Session.ledger_modify {session session' : Session} {ledger : Ledger}
    (change : Ledger → Ledger) (kept : session.ledger? = some ledger)
    (same : session'.storage = session.storage)
    (changed : ∀ storage, session'.ledgerWith storage = change (session.ledgerWith storage)) :
    session'.ledger? = some (change ledger) := by
  obtain ⟨storage, stored, rfl⟩ := Option.map_eq_some_iff.mp kept
  rw [Session.ledger?, same, stored, Option.map_some, changed]

namespace Act

/-- A call that is answered changes the ledger as the store says. -/
theorem ledger_ask {session session' : Session} {ledger : Ledger} {call : StoreCall}
    {reply : StoreReply} (kept : session.ledger? = some ledger)
    (done : (ask call).on session = (.ok reply, session')) :
    ∃ store, ledger.store.perform ledger.fresh call = (.ok reply, store) ∧
      session'.ledger? = some { ledger with
        store, drawn := if call.draws then ledger.drawn + 1 else ledger.drawn } := by
  obtain ⟨storage, stored, rfl⟩ := Option.map_eq_some_iff.mp kept
  rw [on_ask_some call stored] at done
  obtain ⟨answered, rfl⟩ := Prod.mk.inj done
  rw [Storage.perform] at answered ⊢
  split at answered
  · cases answered
  · next working =>
    refine ⟨(storage.store.perform session.supply.drawRecord.1 call).2, ?_, ?_⟩
    · exact Prod.ext answered rfl
    · rw [if_neg working]
      simp only [Session.ledger?, Store.answer, Supply.drawRecord, Option.map_some]
      cases call.draws <;> rfl

end Act

/-! ## Listeners -/

/-- The seven ways to change a text or a graph. -/
def Command.isEdit : Command → Bool
  | .changeText _ | .addNode .. | .removeNode _ | .moveNode .. | .connect .. | .disconnect _
  | .update .. => true
  | .loadFlow | .diagnose | .restart | .callStore _ => false

/-- What a session does itself: it neither starts anew nor is the store called past it. -/
def Command.isOperation : Command → Bool
  | .changeText _ | .addNode .. | .removeNode _ | .moveNode .. | .connect .. | .disconnect _
  | .update .. | .loadFlow | .diagnose => true
  | .restart | .callStore _ => false

/-- Listeners give no other commands than edits. -/
def Setup.EditsOnly (setup : Setup) : Prop :=
  ∀ entry ∈ setup.listeners, ∀ command ∈ entry.2, command.isEdit = true

/-- A command is given on some event. -/
def Setup.Gives (setup : Setup) (command : Command) : Prop :=
  ∃ entry ∈ setup.listeners, command ∈ entry.2

/-- Listeners give no other commands than what the session does itself. -/
def Setup.OperatesOnly (setup : Setup) : Prop :=
  ∀ command, setup.Gives command → command.isOperation = true

theorem Setup.EditsOnly.operatesOnly {setup : Setup} (edits : setup.EditsOnly) :
    setup.OperatesOnly := by
  rintro command ⟨entry, listed, given⟩
  have edit := edits entry listed command given
  cases command with
  | loadFlow | diagnose | restart | callStore => cases edit
  | _ => rfl

/-- Where nobody listens, nothing is given. -/
theorem Setup.operatesOnly_of_unheard {setup : Setup} (unheard : setup.listeners = []) :
    setup.OperatesOnly := by
  rintro command ⟨entry, listed, -⟩
  rw [unheard] at listed
  cases listed

/-- A notice says that there are no diagnostics. -/
def Notice.OfDiagnostics (notice : Notice) : Prop :=
  notice.source = Collaborator.diagnostics.name ∧ notice.offset = none

/-- Two sessions differ at most in their events, in the ids drawn for the canvas, and in notices
about diagnostics that a listener asked for. -/
structure Echo (session session' : Session) : Prop where
  setup : session'.setup = session.setup
  phase : session'.phase = session.phase
  text : session'.text = session.text
  graph : session'.graph = session.graph
  notices : ∃ heard, session'.notices = session.notices ++ heard ∧
    ∀ notice ∈ heard, notice.OfDiagnostics ∧ session.setup.Gives .diagnose
  storage : session'.storage = session.storage
  ledger : session'.ledger? = session.ledger?

namespace Echo

variable {session session' session'' : Session}

theorem refl (session : Session) : Echo session session :=
  ⟨rfl, rfl, rfl, rfl, ⟨[], (List.append_nil _).symm, by simp⟩, rfl, rfl⟩

theorem trans (first : Echo session session') (second : Echo session' session'') :
    Echo session session'' where
  setup := second.setup.trans first.setup
  phase := second.phase.trans first.phase
  text := second.text.trans first.text
  graph := second.graph.trans first.graph
  notices := by
    obtain ⟨heard, same, about⟩ := first.notices
    obtain ⟨heard', same', about'⟩ := second.notices
    rw [first.setup] at about'
    refine ⟨heard ++ heard', by rw [same', same, List.append_assoc], fun notice member => ?_⟩
    exact (List.mem_append.mp member).elim (about notice) (about' notice)
  storage := second.storage.trans first.storage
  ledger := second.ledger.trans first.ledger

end Echo

/-- While a change is being applied, telling changes nothing that counts. -/
def Quiet (tell : Listener) : Prop :=
  ∀ event session, session.phase ≠ .idle → session.setup.OperatesOnly →
    Echo session (tell event session).2

/-- The change of the graph that a command asks for. -/
def Command.change? (session : Session) : Command → Option GraphChange
  | .addNode kind position parent =>
    some (.insert (CanvasNode.create kind position (parent.map session.graph.resolve)
      session.supply.drawNode.1))
  | .removeNode id => some (.remove (session.graph.resolve id))
  | .moveNode id position => some (.move (session.graph.resolve id) position)
  | .connect source target sourceHandle targetHandle =>
    some (.connect {
      id := session.supply.drawEdge.1
      source := session.graph.resolve source, sourceHandle
      target := session.graph.resolve target, targetHandle })
  | .disconnect id => some (.disconnect (session.graph.resolve id))
  | .update id changes =>
    if (Graph.nodeNames.find? changes.has).isSome then none
    else some (.update (session.graph.resolve id) changes)
  | .changeText _ | .loadFlow | .diagnose | .restart | .callStore _ => none

/-- A session once the id is drawn that a command needs. -/
def Command.draw (session : Session) : Command → Session
  | .addNode .. => { session with supply := session.supply.drawNode.2 }
  | .connect .. => { session with supply := session.supply.drawEdge.2 }
  | _ => session

theorem Command.echo_draw (session : Session) (command : Command) :
    Echo session (command.draw session) := by
  cases command <;> exact { Echo.refl session with }

/-- Whether something has come of an edit. -/
def Outcome.isApplied : Outcome → Bool
  | .flag value => value
  | .id given => given.isSome
  | .done | .findings _ | .reply _ => false

theorem on_addNode {session : Session} (tell : Listener) (kind : String) (position : Point)
    (parent : Option String) :
    (addNode tell kind position parent).on session =
      (changeGraph tell (.insert (CanvasNode.create kind position parent
        session.supply.drawNode.1)) >>= fun renamed =>
          pure (renamed.map fun renamed => Graph.newId renamed session.supply.drawNode.1)).on
        { session with supply := session.supply.drawNode.2 } := by
  unfold addNode
  rw [Act.on_get, Act.on_set]

theorem on_connect {session : Session} (tell : Listener) (source target : String)
    (sourceHandle targetHandle : Option String) :
    (connect tell source target sourceHandle targetHandle).on session =
      (changeGraph tell (.connect {
        id := session.supply.drawEdge.1, source, sourceHandle, target, targetHandle }) >>=
          fun changed => pure (changed.map fun _ => session.supply.drawEdge.1)).on
        { session with supply := session.supply.drawEdge.2 } := by
  unfold connect
  rw [Act.on_get, Act.on_set]

/-- What comes of a command, given the new ids of nodes once the graph has changed. -/
def Command.outcome (session : Session) (renamed : Option (Catalog String)) : Command → Outcome
  | .addNode .. =>
    .id (renamed.map fun renamed => Graph.newId renamed session.supply.drawNode.1)
  | .connect .. => .id (renamed.map fun _ => session.supply.drawEdge.1)
  | _ => .flag renamed.isSome

theorem Command.isApplied_outcome (session : Session) (renamed : Option (Catalog String))
    (command : Command) : (command.outcome session renamed).isApplied = renamed.isSome := by
  cases command with
  | addNode | connect => cases renamed <;> rfl
  | _ => rfl

/-- What comes of a command that asks for a change of the graph is what comes of the change. -/
theorem perform_change {session : Session} {command : Command} {change : GraphChange}
    (tell : Listener) (asks : command.change? session = some change) :
    (performWith tell command).on session = Act.finish (command.outcome session)
      ((changeGraph tell change).on (command.draw session)) := by
  unfold performWith
  rw [Act.on_get]
  cases command with
  | addNode kind position parent =>
    cases asks
    dsimp only
    rw [Act.on_map, on_addNode, Act.on_map, Act.finish_finish]
    rfl
  | removeNode id =>
    cases asks
    dsimp only
    rw [Act.on_map, removeNode, Act.on_map, Act.finish_finish]
    rfl
  | moveNode id position =>
    cases asks
    dsimp only
    rw [Act.on_map, moveNode, Act.on_map, Act.finish_finish]
    rfl
  | connect source target sourceHandle targetHandle =>
    cases asks
    dsimp only
    rw [Act.on_map, on_connect, Act.on_map, Act.finish_finish]
    rfl
  | disconnect id =>
    cases asks
    dsimp only
    rw [Act.on_map, disconnect, Act.on_map, Act.finish_finish]
    rfl
  | update id changes =>
    rw [Command.change?] at asks
    cases names : Graph.nodeNames.find? changes.has with
    | some name =>
      rw [names] at asks
      cases asks
    | none =>
      rw [names] at asks
      cases asks
      dsimp only
      rw [Act.on_map, update, names]
      dsimp only
      rw [Act.on_map, Act.finish_finish]
      rfl
  | changeText | loadFlow | diagnose | restart | callStore => cases asks

/-- An edit that asks for no change of the graph changes the text or is refused. -/
theorem perform_other {session : Session} {command : Command} (tell : Listener)
    (edit : command.isEdit = true) (asks : command.change? session = none) :
    (∃ fault, (performWith tell command).on session = (.error fault, session)) ∨
      ∃ change, command = .changeText change ∧
        (performWith tell command).on session =
          Act.finish .flag ((changeText tell (change.apply session.text)).on session) := by
  unfold performWith
  rw [Act.on_get]
  cases command with
  | changeText change =>
    refine .inr ⟨change, rfl, ?_⟩
    dsimp only
    rw [Act.on_map]
  | update id changes =>
    rw [Command.change?] at asks
    cases names : Graph.nodeNames.find? changes.has with
    | some name =>
      refine .inl ⟨.shape (.wrongType name), ?_⟩
      dsimp only
      rw [Act.on_map, update, names]
      rfl
    | none =>
      rw [names] at asks
      cases asks
  | addNode | removeNode | moveNode | connect | disconnect => cases asks
  | loadFlow | diagnose | restart | callStore => cases edit

theorem perform_loadFlow (tell : Listener) (session : Session) :
    (performWith tell .loadFlow).on session =
      Act.finish .flag ((loadFlow tell).on session) := by
  unfold performWith
  rw [Act.on_get]
  dsimp only
  rw [Act.on_map]

/-- While a change is being applied, no other change begins. -/
theorem changeGraph_busy {session : Session} (tell : Listener) (change : GraphChange)
    (busy : session.phase ≠ .idle) :
    (changeGraph tell change).on session = (.ok none, session) := by
  unfold changeGraph
  rw [Act.on_get, if_pos busy]
  rfl

theorem changeText_busy {session : Session} (tell : Listener) (text : String)
    (busy : session.phase ≠ .idle) : (changeText tell text).on session = (.ok false, session) := by
  unfold changeText changeTextWith
  rw [Act.on_get, if_pos (.inl busy)]
  rfl

theorem loadFlow_busy {session : Session} (tell : Listener) (busy : session.phase ≠ .idle) :
    (loadFlow tell).on session = (.ok false, session) := by
  unfold loadFlow
  rw [Act.on_get, if_pos (by simp [busy])]
  rfl

/-- Diagnostics leave a notice at most. -/
theorem echo_diagnose {tell : Listener} {session : Session} (quiet : Quiet tell)
    (busy : session.phase ≠ .idle) (listeners : session.setup.OperatesOnly)
    (given : session.setup.Gives .diagnose) :
    Echo session (diagnose tell session).2 := by
  unfold diagnose
  simp only [bind, StateT.bind, get, getThe, MonadStateOf.get, StateT.get, pure]
  cases session.setup.checker.check session.text with
  | ok found => exact .refl session
  | error fault =>
    have noticed : Echo session { session with
        notices := session.notices ++ [failureNotice .diagnostics fault] } :=
      { Echo.refl session with
        notices := by
          refine ⟨_, rfl, fun notice member => ?_⟩
          rw [List.mem_singleton.mp member]
          exact ⟨⟨rfl, rfl⟩, given⟩ }
    exact noticed.trans (quiet .notice _ busy listeners)

/-- While a change is being applied, an operation draws an id or leaves a notice at most. -/
theorem echo_of_operation {tell : Listener} {session : Session} {command : Command}
    (quiet : Quiet tell) (busy : session.phase ≠ .idle)
    (listeners : session.setup.OperatesOnly) (given : session.setup.Gives command) :
    Echo session ((performWith tell command).on session).2 := by
  have drawn := command.echo_draw session
  cases asks : command.change? session with
  | some change =>
    rw [perform_change tell asks, changeGraph_busy tell change (drawn.phase ▸ busy)]
    exact drawn
  | none =>
    by_cases edit : command.isEdit = true
    · rcases perform_other tell edit asks with ⟨fault, same⟩ | ⟨change, -, same⟩
      · rw [same]
        exact .refl session
      · rw [same, changeText_busy tell _ busy]
        exact .refl session
    · cases command with
      | loadFlow =>
        rw [perform_loadFlow, loadFlow_busy tell busy]
        exact .refl session
      | diagnose =>
        unfold performWith
        rw [Act.on_get]
        dsimp only
        rw [Act.on_liftM]
        exact echo_diagnose quiet busy listeners given
      | changeText | addNode | removeNode | moveNode | connect | disconnect | update =>
        exact absurd rfl edit
      | restart | callStore => cases listeners _ given

theorem echo_mapM {run : Command → Act Outcome} {commands : List Command}
    (each : ∀ command ∈ commands, ∀ session : Session, session.phase ≠ .idle →
      session.setup.OperatesOnly → session.setup.Gives command →
        Echo session ((run command).on session).2) (session : Session)
    (busy : session.phase ≠ .idle) (listeners : session.setup.OperatesOnly)
    (given : ∀ command ∈ commands, session.setup.Gives command) :
    Echo session ((commands.mapM fun command => (run command).run) session).2 := by
  induction commands generalizing session with
  | nil => exact .refl session
  | cons command rest ih =>
    obtain ⟨givenFirst, givenLater⟩ := List.forall_mem_cons.mp given
    have first := each command (List.mem_cons_self ..) session busy listeners givenFirst
    have later := ih (fun command member => each command (List.mem_cons_of_mem _ member))
      ((run command).on session).2 (first.phase ▸ busy) (first.setup ▸ listeners)
      (first.setup ▸ givenLater)
    rw [List.mapM_cons]
    exact first.trans later

/-- Telling is quiet if the commands are that are done on events. -/
theorem quiet_tellWith {run : Command → Act Outcome}
    (each : ∀ (command : Command) (session : Session), session.phase ≠ .idle →
      session.setup.OperatesOnly → session.setup.Gives command →
        Echo session ((run command).on session).2) :
    Quiet (tellWith run) := by
  intro event session busy listeners
  have logged : Echo session { session with
      log := session.log ++ [{ event, phase := session.phase }] } := { Echo.refl session with }
  unfold tellWith
  simp only [bind, StateT.bind, get, getThe, MonadStateOf.get, StateT.get, pure, set_run]
  cases found : session.setup.listeners.lookup event with
  | none => exact logged
  | some commands =>
    obtain ⟨before, after, same, -⟩ := List.lookup_eq_some_iff.mp found
    have listed : (event, commands) ∈ session.setup.listeners := by
      rw [same]
      exact List.mem_append_right _ (List.mem_cons_self ..)
    have heard := echo_mapM (fun command _ => each command)
      { session with log := session.log ++ [{ event, phase := session.phase }] } busy listeners
      fun command member => ⟨_, listed, member⟩
    refine logged.trans (heard.trans ?_)
    exact { Echo.refl _ with }

/-- The listener of a session in which commands on events are followed to a depth. -/
def listener : Nat → Listener
  | 0 => tellWith fun _ => return .done
  | depth + 1 => tellWith (perform depth)

theorem perform_eq (depth : Nat) (command : Command) :
    perform depth command = performWith (listener depth) command := by
  cases depth <;> rfl

/-- Telling is quiet, however deep commands on events of commands are followed. -/
theorem quiet_listener (depth : Nat) : Quiet (listener depth) := by
  induction depth with
  | zero => exact quiet_tellWith fun _ session _ _ _ => .refl session
  | succ depth ih =>
    refine quiet_tellWith fun command session busy listeners given => ?_
    rw [perform_eq]
    exact echo_of_operation ih busy listeners given

end SourceCanvas
