import SourceCanvas.Proofs.ActInvariants

/-!
# Listening is harmless

Whoever listens to a session may answer an event with commands, chosen by what came of earlier ones
and by what the session shows (`Reaction`). While a change is being applied, such commands are all
refused, and they leave nothing behind but drawn ids. So a change that is heard comes to the same as
one that nobody hears (`Session.unheard`).

To compare the two, a session is looked at without what listeners leave behind (`Session.bare`).
Steps are shadowed by plain ones, in which events are only noted, if both come to the same under
that view (`Shadowed`); each step of a change is, and so is the change as a whole.
-/

namespace SourceCanvas

open Session

/-! ## Reactions -/

/-- What whoever listens does: commands one after the other, each chosen by what came of the one
before and by the session afterwards. -/
inductive Reaction where
  | rest
  | give (command : Command) (next : Except Fault Outcome → Session → Reaction)

/-- What is done on an event in a session, whose log has all events before; nothing where nobody
listens. -/
abbrev Audience := Event → Session → Option Reaction

namespace Reaction

/-- All commands that are given are of a kind. -/
def Gives (allowed : Command → Prop) : Reaction → Prop
  | rest => True
  | give command next => allowed command ∧ ∀ outcome session, (next outcome session).Gives allowed

/-- Commands that are given whatever comes of them. -/
def script : List Command → Reaction
  | [] => rest
  | command :: commands => give command fun _ _ => script commands

/-- Gives the commands, and tells what came of them. -/
def perform (run : Command → Act Outcome) : Reaction → StateM Session (List (Except Fault Outcome))
  | rest => return []
  | give command next => do
    let outcome ← (run command).run
    let session ← get
    let later ← perform run (next outcome session)
    return outcome :: later

theorem perform_give {run : Command → Act Outcome} {command : Command}
    {next : Except Fault Outcome → Session → Reaction} {session after session' : Session}
    {result : Except Fault Outcome} {results : List (Except Fault Outcome)}
    (first : (run command).on session = (result, after))
    (later : (next result after).perform run after = (results, session')) :
    (give command next).perform run session = (result :: results, session') := by
  have step : (give command next).perform run session =
      (fun came : Except Fault Outcome × Session =>
        (fun later : List (Except Fault Outcome) × Session => (came.1 :: later.1, later.2))
          ((next came.1 came.2).perform run came.2)) ((run command).on session) := rfl
  rw [step, first]
  dsimp only
  rw [later]

end Reaction

namespace Session

/-- Keeps an event in the log and has done what the audience does on it. -/
def tellBy (audience : Audience) (run : Command → Act Outcome) : Listener := fun event => do
  let session ← get
  let place := session.log.length
  let entry : EventRecord := { event, phase := session.phase }
  set { session with log := session.log ++ [entry] }
  match audience event session with
  | none => return
  | some reaction =>
    let inner ← reaction.perform run
    modify fun session =>
      { session with
        log := session.log.modify place fun entry => { entry with inner := some inner } }

theorem tellBy_eq (audience : Audience) (run : Command → Act Outcome) (event : Event)
    (session : Session) :
    tellBy audience run event session = (match audience event session with
      | none => pure ()
      | some reaction => do
        let inner ← reaction.perform run
        modify fun after => { after with
          log := after.log.modify session.log.length fun entry =>
            { entry with inner := some inner } } : StateM Session Unit)
        { session with log := session.log ++ [{ event, phase := session.phase }] } := rfl

/-- The listener for an audience whose commands are followed to a depth. -/
def hearing (audience : Audience) : Nat → Listener
  | 0 => tellBy audience fun _ => return .done
  | depth + 1 => tellBy audience (performWith (hearing audience depth))

/-- Does what a command says before an audience. -/
def performBy (audience : Audience) (depth : Nat) (command : Command) : Act Outcome :=
  performWith (hearing audience depth) command

/-- Nobody listens. -/
def nobody : Audience := fun _ _ => none

/-- The audience that a session is set up with. -/
def scripted : Audience := fun event session =>
  (session.setup.listeners.lookup event).map Reaction.script

theorem perform_script (run : Command → Act Outcome) (commands : List Command) :
    (Reaction.script commands).perform run = commands.mapM fun command => (run command).run := by
  induction commands with
  | nil => rfl
  | cons command rest ih =>
    rw [Reaction.script, Reaction.perform, List.mapM_cons, ih]
    rfl

theorem tellBy_scripted (run : Command → Act Outcome) : tellBy scripted run = tellWith run := by
  funext event session
  unfold tellBy tellWith scripted
  simp only [bind, StateT.bind, get, getThe, MonadStateOf.get, StateT.get, pure, set_run]
  cases session.setup.listeners.lookup event with
  | none => rfl
  | some commands =>
    simp only [Option.map_some, perform_script]

theorem hearing_scripted (depth : Nat) : hearing scripted depth = listener depth := by
  induction depth with
  | zero => exact tellBy_scripted _
  | succ depth ih =>
    rw [hearing, tellBy_scripted, ih, listener]
    congr 1
    funext command
    exact (perform_eq depth command).symm

/-- A session's own listeners are an audience. -/
theorem performBy_scripted (depth : Nat) (command : Command) :
    performBy scripted depth command = perform depth command := by
  rw [performBy, hearing_scripted, perform_eq]

end Session

/-! ## Refusals -/

/-- A command is refused: it came to no change, or to no id. -/
def Refused (result : Except Fault Outcome) : Prop :=
  result = .ok (.flag false) ∨ result = .ok (.id none)

/-- What a listener may call: the changes of the text and of the graph, and loading. A change of
fields that name the node itself is not a call at all. -/
def Command.IsChange : Command → Prop
  | .update _ changes => Graph.nodeNames.find? changes.has = none
  | .changeText _ | .addNode .. | .removeNode _ | .moveNode .. | .connect .. | .disconnect _
  | .loadFlow => True
  | .diagnose | .restart | .callStore _ => False

/-- All commands that were given on an event have been refused. -/
def EventRecord.Refused (record : EventRecord) : Prop :=
  ∀ inner ∈ record.inner, ∀ result ∈ inner, SourceCanvas.Refused result

/-- While a change is being applied, others are refused and come to nothing but a drawn id. -/
theorem refused_of_busy {session : Session} {command : Command} (tell : Listener)
    (isChange : command.IsChange) (busy : session.phase ≠ .idle) :
    ∃ result, Refused result ∧
      (performWith tell command).on session = (result, command.draw session) := by
  cases asks : command.change? session with
  | some change =>
    have still : (command.draw session).phase ≠ .idle := (command.echo_draw session).phase ▸ busy
    have refusal : Refused (.ok (command.outcome session none)) := by
      cases command with
      | addNode | connect => exact .inr rfl
      | _ => exact .inl rfl
    rw [perform_change tell asks, changeGraph_busy tell change still]
    exact ⟨_, refusal, rfl⟩
  | none =>
    cases command with
    | changeText edit =>
      refine ⟨_, .inl rfl, ?_⟩
      unfold performWith
      rw [Act.on_get]
      dsimp only
      rw [Act.on_map, changeText_busy tell _ busy]
      rfl
    | loadFlow =>
      refine ⟨_, .inl rfl, ?_⟩
      unfold performWith
      rw [Act.on_get]
      dsimp only
      rw [Act.on_map, loadFlow_busy tell busy]
      rfl
    | update id changes =>
      rw [Command.change?, isChange] at asks
      cases asks
    | addNode | removeNode | moveNode | connect | disconnect => cases asks
    | diagnose | restart | callStore => cases isChange

/-! ## The view of a session without its listeners -/

/-- An event, without what came of the commands of its listener. -/
def EventRecord.bare (record : EventRecord) : EventRecord := { record with inner := none }

/-- A session without what listeners may leave behind: ids drawn for the canvas, and in the log what
came of their commands. -/
def Session.bare (session : Session) : Session :=
  { session with
    supply := { records := session.supply.records }
    log := session.log.map EventRecord.bare }

/-- A change is being applied, and since its start all commands of listeners have been refused. -/
structure Session.Busy (start : List EventRecord) (session : Session) : Prop where
  busy : session.phase ≠ .idle
  news : ∃ news, session.log = start ++ news ∧ ∀ record ∈ news, record.Refused

variable {α β α' β' : Type} {start : List EventRecord}

namespace Session

/-- Notes an event. -/
def note : Listener := fun event =>
  modify fun session => { session with log := session.log ++ [{ event, phase := session.phase }] }

/-- Steps are shadowed by plain ones: these come to the same, as the bare session shows it. -/
def Shadowed (start : List EventRecord) (steps : StateM Session α) (plain : StateM Session β)
    (same : α → β → Prop) : Prop :=
  ∀ session, Busy start session → Busy start (steps session).2 ∧
    (plain session.bare).2 = (steps session).2.bare ∧
      same (steps session).1 (plain session.bare).1

/-- What is read of a session while a change is being applied. -/
def Seen (start : List EventRecord) (session plain : Session) : Prop :=
  Busy start session ∧ plain = session.bare

theorem shadowed_pure (value : α) : Shadowed start (pure value) (pure value) Eq :=
  fun _ busy => ⟨busy, rfl, rfl⟩

theorem Shadowed.bind {steps : StateM Session α} {plain : StateM Session β}
    {next : α → StateM Session α'} {next' : β → StateM Session β'} {same : α → β → Prop}
    {same' : α' → β' → Prop} (first : Shadowed start steps plain same)
    (second : ∀ value value', same value value' →
      Shadowed start (next value) (next' value') same') :
    Shadowed start (steps >>= next) (plain >>= next') same' := by
  intro session busy
  obtain ⟨busy', view, fit⟩ := first session busy
  obtain ⟨busy'', view', fit'⟩ := second _ _ fit _ busy'
  rw [← view] at view' fit'
  exact ⟨busy'', view', fit'⟩

/-- Steps that come to the same value go on with it. -/
theorem Shadowed.then {steps plain : StateM Session α} {next : α → StateM Session α'}
    {next' : α → StateM Session β'} {same' : α' → β' → Prop}
    (first : Shadowed start steps plain Eq)
    (second : ∀ value, Shadowed start (next value) (next' value) same') :
    Shadowed start (steps >>= next) (plain >>= next') same' :=
  first.bind fun value value' same => by
    subst same
    exact second value

section Reading

variable {same : α → β → Prop}

/-- What is read is the session, and the bare one. -/
theorem shadowed_get {next : Session → StateM Session α} {next' : Session → StateM Session β}
    (rest : ∀ session, Busy start session →
      Shadowed start (next session) (next' session.bare) same) :
    Shadowed start (get >>= next) (get >>= next') same :=
  fun session busy => rest session busy session busy

theorem shadowed_set {session plain : Session} {next : PUnit → StateM Session α}
    {next' : PUnit → StateM Session β} (seen : Seen start session plain)
    (rest : Shadowed start (next ⟨⟩) (next' ⟨⟩) same) :
    Shadowed start (set session >>= next) (set plain >>= next') same := by
  intro _ _
  obtain ⟨busy, rfl⟩ := seen
  exact rest session busy

theorem shadowed_modify {change plainly : Session → Session} {next : PUnit → StateM Session α}
    {next' : PUnit → StateM Session β}
    (seen : ∀ session, Busy start session → Seen start (change session) (plainly session.bare))
    (rest : Shadowed start (next ⟨⟩) (next' ⟨⟩) same) :
    Shadowed start (modify change >>= next) (modify plainly >>= next') same := by
  intro session busy
  obtain ⟨busy', view⟩ := seen session busy
  have shadowed := rest (change session) busy'
  rw [← view] at shadowed
  exact shadowed

end Reading

theorem shadowed_last {change plainly : Session → Session}
    (seen : ∀ session, Busy start session → Seen start (change session) (plainly session.bare)) :
    Shadowed start (modify change) (modify plainly) Eq :=
  fun session busy => ⟨(seen session busy).1, (seen session busy).2, rfl⟩

/-- Steps that depend on what the bare session shows, too. -/
theorem shadowed_ite {steps steps' : StateM Session α} {plain plain' : StateM Session β}
    {same : α → β → Prop} (condition : Prop) [Decidable condition]
    (first : Shadowed start steps plain same) (second : Shadowed start steps' plain' same) :
    Shadowed start (if condition then steps else steps') (if condition then plain else plain')
      same := by
  split
  · exact first
  · exact second

theorem shadowed_forM {each plain : α → StateM Session Unit} {list : List α}
    (shadowed : ∀ a, Shadowed start (each a) (plain a) Eq) :
    Shadowed start (list.forM each) (list.forM plain) Eq := by
  induction list with
  | nil => exact shadowed_pure ()
  | cons a rest ih => exact (shadowed a).then fun _ => ih

end Session

namespace Act

/-- Two results are values of which something holds, or the same failure. -/
inductive SameResult (same : α → β → Prop) : Except Fault α → Except Fault β → Prop
  | ok {value : α} {value' : β} (fit : same value value') : SameResult same (.ok value) (.ok value')
  | error (fault : Fault) : SameResult same (.error fault) (.error fault)

theorem SameResult.eq {result result' : Except Fault α} (same : SameResult Eq result result') :
    result = result' := by
  cases same with
  | ok same => rw [same]
  | error => rfl

/-- An act is shadowed by a plain one. -/
def Shadowed (start : List EventRecord) (act : Act α) (plain : Act β) (same : α → β → Prop) :
    Prop :=
  ∀ session, Busy start session → Busy start (act.on session).2 ∧
    (plain.on session.bare).2 = (act.on session).2.bare ∧
      SameResult same (act.on session).1 (plain.on session.bare).1

theorem shadowed_pure (value : α) : Act.Shadowed start (pure value) (pure value) Eq :=
  fun _ busy => ⟨busy, rfl, .ok rfl⟩

theorem shadowed_throw (fault : Fault) (same : α → β → Prop) :
    Act.Shadowed start (throw fault) (throw fault) same :=
  fun _ busy => ⟨busy, rfl, .error fault⟩

theorem Shadowed.bind {act : Act α} {plain : Act β} {next : α → Act α'} {next' : β → Act β'}
    {same : α → β → Prop} {same' : α' → β' → Prop} (first : act.Shadowed start plain same)
    (second : ∀ value value', same value value' →
      (next value).Shadowed start (next' value') same') :
    (act >>= next).Shadowed start (plain >>= next') same' := by
  intro session busy
  obtain ⟨busy', view, fit⟩ := first session busy
  rw [on_bind, on_bind]
  cases came : act.on session with
  | mk result after =>
    cases came' : plain.on session.bare with
    | mk result' after' =>
      rw [came] at busy' view fit
      rw [came'] at view fit
      cases fit with
      | error fault => exact ⟨busy', view, .error fault⟩
      | ok fit =>
        cases view
        exact second _ _ fit after busy'

theorem Shadowed.then {act plain : Act α} {next : α → Act α'} {next' : α → Act β'}
    {same' : α' → β' → Prop} (first : act.Shadowed start plain Eq)
    (second : ∀ value, (next value).Shadowed start (next' value) same') :
    (act >>= next).Shadowed start (plain >>= next') same' :=
  first.bind fun value value' same => by
    subst same
    exact second value

section Reading

variable {same : α → β → Prop}

theorem shadowed_get {next : Session → Act α} {next' : Session → Act β}
    (rest : ∀ session, Busy start session →
      (next session).Shadowed start (next' session.bare) same) :
    Act.Shadowed start (get >>= next) (get >>= next') same := by
  intro session busy
  rw [on_get, on_get]
  exact rest session busy session busy

theorem shadowed_set {session plain : Session} {next : PUnit → Act α} {next' : PUnit → Act β}
    (seen : Seen start session plain) (rest : (next ⟨⟩).Shadowed start (next' ⟨⟩) same) :
    Act.Shadowed start (set session >>= next) (set plain >>= next') same := by
  intro _ _
  obtain ⟨busy, rfl⟩ := seen
  rw [on_set, on_set]
  exact rest session busy

theorem shadowed_modify {change plainly : Session → Session} {next : PUnit → Act α}
    {next' : PUnit → Act β}
    (seen : ∀ session, Busy start session → Seen start (change session) (plainly session.bare))
    (rest : (next ⟨⟩).Shadowed start (next' ⟨⟩) same) :
    Act.Shadowed start (modify change >>= next) (modify plainly >>= next') same := by
  intro session busy
  obtain ⟨busy', view⟩ := seen session busy
  rw [on_modify, on_modify, view]
  exact rest (change session) busy'

end Reading

theorem shadowed_last {change plainly : Session → Session}
    (seen : ∀ session, Busy start session → Seen start (change session) (plainly session.bare)) :
    Act.Shadowed start (modify change) (modify plainly) Eq :=
  fun session busy => ⟨(seen session busy).1, (seen session busy).2, .ok rfl⟩

/-- Steps that cannot fail, as an act. -/
theorem shadowed_lift {steps : StateM Session α} {plain : StateM Session β} {same : α → β → Prop}
    (shadowed : Session.Shadowed start steps plain same) :
    Act.Shadowed start (ExceptT.lift steps) (ExceptT.lift plain) same := by
  intro session busy
  obtain ⟨busy, view, fit⟩ := shadowed session busy
  exact ⟨busy, view, .ok fit⟩

/-- An act, as steps that come to a result. -/
theorem Shadowed.run {act plain : Act α} (shadowed : act.Shadowed start plain Eq) :
    Session.Shadowed start act.run plain.run Eq := by
  intro session busy
  obtain ⟨busy, view, fit⟩ := shadowed session busy
  exact ⟨busy, view, fit.eq⟩

theorem shadowed_ite {act act' : Act α} {plain plain' : Act β} {same : α → β → Prop}
    (condition : Prop) [Decidable condition] (first : act.Shadowed start plain same)
    (second : act'.Shadowed start plain' same) :
    Act.Shadowed start (if condition then act else act') (if condition then plain else plain')
      same := by
  split
  · exact first
  · exact second

theorem shadowed_forM {each plain : α → Act Unit} {list : List α}
    (shadowed : ∀ a, (each a).Shadowed start (plain a) Eq) :
    Act.Shadowed start (list.forM each) (list.forM plain) Eq := by
  induction list with
  | nil => exact shadowed_pure ()
  | cons a rest ih => exact (shadowed a).then fun _ => ih

theorem shadowed_foldlM {each plain : β → α → Act β} {list : List α} {first : β}
    (shadowed : ∀ sofar a, (each sofar a).Shadowed start (plain sofar a) Eq) :
    Act.Shadowed start (list.foldlM each first) (list.foldlM plain first) Eq := by
  induction list generalizing first with
  | nil => exact shadowed_pure first
  | cons a rest ih => exact (shadowed first a).then fun _ => ih

end Act

/-! ## Saving -/

/-- Telling is shadowed by noting the event. -/
def Session.ShadowedTelling (start : List EventRecord) (tell : Listener) : Prop :=
  ∀ event, Shadowed start (tell event) (note event) Eq

namespace Session

variable {tell : Listener}

theorem shadowed_notify (heard : ShadowedTelling start tell) (notice : Notice) :
    Shadowed start (notify tell notice) (notify note notice) Eq :=
  shadowed_modify (fun _ busy => ⟨{ busy with }, rfl⟩) (heard .notice)

theorem shadowed_attempt (heard : ShadowedTelling start tell) (collaborator : Collaborator)
    {act plain : Act Unit} (shadowed : act.Shadowed start plain Eq) :
    Shadowed start (attempt tell collaborator act) (attempt note collaborator plain) Eq := by
  refine shadowed.run.then fun result => ?_
  cases result with
  | ok value => exact shadowed_pure ()
  | error fault => exact shadowed_notify heard _

end Session

namespace Act

/-- A call of the store draws no ids for the canvas. -/
theorem perform_bare (storage : Storage) (supply : Supply) (call : StoreCall) :
    storage.perform { records := supply.records } call =
      ((storage.perform supply call).1, (storage.perform supply call).2.1,
        { records := (storage.perform supply call).2.2.records }) := by
  rw [Storage.perform, Storage.perform]
  split
  · rfl
  · simp only [Store.answer, Supply.drawRecord]
    cases call.draws <;> rfl

theorem shadowed_ask (call : StoreCall) : (ask call).Shadowed start (ask call) Eq := by
  intro session busy
  cases stored : session.storage with
  | none =>
    have stored' : session.bare.storage = none := stored
    rw [on_ask_none call stored, on_ask_none call stored']
    exact ⟨busy, rfl, .ok rfl⟩
  | some storage =>
    have stored' : session.bare.storage = some storage := stored
    have same := perform_bare storage session.supply call
    rw [on_ask_some call stored, on_ask_some call stored', Session.bare, same]
    refine ⟨{ busy with }, rfl, ?_⟩
    dsimp only
    cases (storage.perform session.supply call).1 with
    | ok reply => exact .ok rfl
    | error fault => exact .error fault

theorem shadowed_dropEdge (id : String) : (dropEdge id).Shadowed start (dropEdge id) Eq := by
  refine shadowed_get fun session busy => ?_
  refine shadowed_ite _ (shadowed_pure ()) ?_
  refine shadowed_set ⟨{ busy with }, rfl⟩ ?_
  refine (shadowed_ask _).then fun _ => ?_
  exact shadowed_last fun _ busy => ⟨{ busy with }, rfl⟩

theorem shadowed_dropNode (id : String) : (dropNode id).Shadowed start (dropNode id) Eq := by
  refine shadowed_get fun session busy => ?_
  refine shadowed_ite _ (shadowed_pure ()) ?_
  refine shadowed_set ⟨{ busy with }, rfl⟩ ?_
  refine (shadowed_ask _).then fun _ => ?_
  exact shadowed_last fun _ busy => ⟨{ busy with }, rfl⟩

theorem shadowed_writeNode (node : CanvasNode) :
    (writeNode node).Shadowed start (writeNode node) Eq := by
  refine shadowed_get fun session busy => ?_
  refine shadowed_ite _ (shadowed_pure ()) ?_
  refine (shadowed_ask _).then fun _ => ?_
  exact shadowed_last fun _ busy => ⟨{ busy with }, rfl⟩

theorem shadowed_writeEdge (edge : Edge) :
    (writeEdge edge).Shadowed start (writeEdge edge) Eq := by
  refine shadowed_get fun session busy => ?_
  refine shadowed_ite _ (shadowed_pure ()) ?_
  have same : session.bare.nodeRecords = session.nodeRecords := rfl
  rw [same]
  split
  · refine (shadowed_ask _).then fun _ => ?_
    exact shadowed_last fun _ busy => ⟨{ busy with }, rfl⟩
  · exact shadowed_pure ()

theorem shadowed_writeDifferences : writeDifferences.Shadowed start writeDifferences Eq := by
  refine shadowed_get fun _ _ => ?_
  refine (shadowed_forM shadowed_dropEdge).then fun _ => ?_
  refine shadowed_get fun _ _ => ?_
  refine (shadowed_forM shadowed_dropNode).then fun _ => ?_
  refine shadowed_get fun _ _ => ?_
  refine (shadowed_forM shadowed_writeNode).then fun _ => ?_
  refine shadowed_get fun _ _ => ?_
  exact shadowed_forM shadowed_writeEdge

end Act

namespace Session

variable {tell : Listener}

theorem shadowed_saveGraph (heard : ShadowedTelling start tell) :
    Shadowed start (saveGraph tell) (saveGraph note) Eq := by
  refine shadowed_get fun session _ => ?_
  exact shadowed_ite _ (shadowed_attempt heard _ Act.shadowed_writeDifferences) (shadowed_pure ())

theorem shadowed_saveText (heard : ShadowedTelling start tell) (text : String) :
    Shadowed start (saveText tell text) (saveText note text) Eq := by
  refine shadowed_get fun session _ => ?_
  refine shadowed_ite _ (shadowed_attempt heard _ ?_) (shadowed_pure ())
  exact (Act.shadowed_ask _).then fun _ => Act.shadowed_pure ()

/-! ## Changes -/

theorem shadowed_computeLayout (heard : ShadowedTelling start tell) (graph : Graph) :
    Shadowed start (computeLayout tell graph) (computeLayout note graph) Eq := by
  refine shadowed_get fun session _ => ?_
  refine shadowed_ite _ ?_ (shadowed_pure _)
  exact (shadowed_notify heard _).then fun _ => shadowed_pure _

theorem shadowed_mergeNodes (heard : ShadowedTelling start tell) (nodes : List Node) :
    Shadowed start (mergeNodes (computeLayout tell) nodes)
      (mergeNodes (computeLayout note) nodes) Eq := by
  have positions : Shadowed start (newPositions (computeLayout tell) (.ofNodes nodes []))
      (newPositions (computeLayout note) (.ofNodes nodes [])) Eq :=
    shadowed_get fun session _ =>
      shadowed_ite _ (shadowed_pure _) (shadowed_computeLayout heard _)
  exact positions.then fun _ => shadowed_last fun _ busy => ⟨{ busy with }, rfl⟩

theorem shadowed_followText (heard : ShadowedTelling start tell) (text : String) :
    Shadowed start (followText (computeLayout tell) tell text)
      (followText (computeLayout note) note text) Eq := by
  refine shadowed_modify (fun _ busy => ⟨{ busy with }, rfl⟩) ?_
  refine shadowed_get fun session _ => ?_
  have same : session.bare.setup = session.setup := rfl
  rw [same]
  cases parse session.setup.settings.reclassify text with
  | error error => exact (shadowed_notify heard _).then fun _ => shadowed_pure _
  | ok nodes =>
    refine (shadowed_mergeNodes heard nodes).then fun _ => ?_
    refine (shadowed_saveGraph heard).then fun _ => ?_
    refine (shadowed_saveText heard text).then fun _ => ?_
    exact (heard .graph).then fun _ => shadowed_pure _

theorem shadowed_dropRecord (heard : ShadowedTelling start tell) (id : String) :
    Shadowed start (dropRecord tell id) (dropRecord note id) Eq := by
  refine shadowed_get fun session busy => ?_
  refine shadowed_set ⟨{ busy with }, rfl⟩ ?_
  refine shadowed_attempt heard _ ?_
  exact (Act.shadowed_ask _).then fun _ => Act.shadowed_pure ()

theorem shadowed_moveRecords (heard : ShadowedTelling start tell) (renamed : Catalog String) :
    Shadowed start (moveRecords tell renamed) (moveRecords note renamed) Eq := by
  refine shadowed_get fun session _ => ?_
  refine (shadowed_forM fun id => shadowed_dropRecord heard id).then fun _ => ?_
  exact shadowed_last fun _ busy => ⟨{ busy with }, rfl⟩

theorem shadowed_settleGraph (heard : ShadowedTelling start tell) (program : Program) :
    Shadowed start (settleGraph tell program) (settleGraph note program) Eq := by
  refine shadowed_get fun session busy => ?_
  refine shadowed_set ⟨{ busy with }, rfl⟩ ?_
  refine shadowed_ite _ (shadowed_pure _) ?_
  exact (shadowed_moveRecords heard _).then fun _ => shadowed_pure _

theorem shadowed_takeText (heard : ShadowedTelling start tell) (text : String) :
    Shadowed start (takeText tell text) (takeText note text) Eq := by
  refine shadowed_get fun session busy => ?_
  refine shadowed_ite _ (shadowed_pure ()) ?_
  refine shadowed_set ⟨{ busy with }, rfl⟩ ?_
  exact (shadowed_saveText heard text).then fun _ => heard .text

theorem shadowed_writeText (heard : ShadowedTelling start tell) :
    Shadowed start (writeText tell) (writeText note) Eq := by
  refine shadowed_get fun session _ => ?_
  have same : session.bare.writing? session.bare.graph = session.writing? session.graph := rfl
  rw [same]
  cases session.writing? session.graph with
  | none => exact shadowed_pure _
  | some program =>
    refine (shadowed_settleGraph heard program).then fun _ => ?_
    exact (shadowed_takeText heard _).then fun _ => shadowed_pure _

/-! ## Loading -/

theorem shadowed_takeNode (graph : Graph) (stored : StoredNode) :
    (takeNode graph stored).Shadowed start (takeNode graph stored) Eq := by
  rw [takeNode]
  split
  · exact Act.shadowed_throw _ _
  · exact Act.shadowed_modify (fun _ busy => ⟨{ busy with }, rfl⟩) (Act.shadowed_pure _)

theorem shadowed_takeEdge (ids : Catalog String) (graph : Graph) (stored : StoredEdge) :
    (takeEdge ids graph stored).Shadowed start (takeEdge ids graph stored) Eq := by
  rw [takeEdge]
  split
  · exact Act.shadowed_throw _ _
  · exact Act.shadowed_pure _
  · exact Act.shadowed_modify (fun _ busy => ⟨{ busy with }, rfl⟩) (Act.shadowed_pure _)

theorem shadowed_takeRecords (nodes : List StoredNode) (edges : List StoredEdge) :
    (takeRecords nodes edges).Shadowed start (takeRecords nodes edges) Eq := by
  refine Act.shadowed_modify (fun _ busy => ⟨{ busy with }, rfl⟩) ?_
  refine (Act.shadowed_foldlM shadowed_takeNode).then fun graph => ?_
  exact Act.shadowed_get fun session _ => Act.shadowed_foldlM (shadowed_takeEdge _)

/-! ## Telling an audience -/

/-- An audience gives only changes. -/
def ChangesOnly (audience : Audience) : Prop :=
  ∀ event session reaction, audience event session = some reaction →
    reaction.Gives Command.IsChange

/-- What a listener gives while a change is being applied is refused, and leaves nothing behind. -/
theorem perform_busy (tell : Listener) {reaction : Reaction}
    (gives : reaction.Gives Command.IsChange) {session : Session} (busy : session.phase ≠ .idle) :
    ∃ results session', reaction.perform (performWith tell) session = (results, session') ∧
      (∀ result ∈ results, Refused result) ∧ session'.bare = session.bare ∧
        session'.log = session.log := by
  induction reaction generalizing session with
  | rest => exact ⟨[], session, rfl, by simp, rfl, rfl⟩
  | give command next ih =>
    obtain ⟨isChange, later⟩ := gives
    obtain ⟨result, refused, same⟩ := refused_of_busy tell isChange busy
    have drawn : (command.draw session).bare = session.bare := by cases command <;> rfl
    have unlogged : (command.draw session).log = session.log := by cases command <;> rfl
    have still : (command.draw session).phase ≠ .idle := (command.echo_draw session).phase ▸ busy
    obtain ⟨results, session', came, allRefused, bare, log⟩ :=
      ih result (command.draw session) (later _ _) still
    exact ⟨result :: results, session', Reaction.perform_give same came,
      List.forall_mem_cons.mpr ⟨refused, allRefused⟩, bare.trans drawn, log.trans unlogged⟩

/-- An event is noted in a session that is busy. -/
theorem Busy.noted {session : Session} (busy : Busy start session) {record : EventRecord}
    (refused : record.Refused) : Busy start { session with log := session.log ++ [record] } := by
  obtain ⟨news, logged, allRefused⟩ := busy.news
  refine ⟨busy.busy, news ++ [record], by simp [logged], fun heard member => ?_⟩
  rcases List.mem_append.mp member with old | new
  · exact allRefused heard old
  · rw [List.mem_singleton.mp new]
    exact refused

/-- Telling an audience whose commands are all refused is no more than noting the event. -/
theorem shadowedTelling_tellBy (tell : Listener) {audience : Audience}
    (changes : ChangesOnly audience) (start : List EventRecord) :
    ShadowedTelling start (tellBy audience (performWith tell)) := by
  intro event session busy
  let entry : EventRecord := { event, phase := session.phase }
  have plain : note event session.bare =
      ((), { session with log := session.log ++ [entry] }.bare) := by
    show ((), { session.bare with log := session.bare.log ++ [entry] }) = _
    simp only [Session.bare, List.map_append]
    rfl
  rw [tellBy_eq, plain]
  cases heard : audience event session with
  | none => exact ⟨busy.noted nofun, rfl, rfl⟩
  | some reaction =>
    let session' := { session with log := session.log ++ [entry] }
    obtain ⟨results, after, came, allRefused, bare, log⟩ :=
      perform_busy tell (changes _ _ _ heard) (show session'.phase ≠ .idle from busy.busy)
    let record := { entry with inner := some results }
    have placed : after.log.modify session.log.length
        (fun entry => { entry with inner := some results }) = session.log ++ [record] := by
      rw [log, List.modify_eq_take_cons_drop (by simp [session'])]
      simp [session', record]
    have told : (do
        let inner ← reaction.perform (performWith tell)
        modify fun after => { after with
          log := after.log.modify session.log.length fun entry =>
            { entry with inner := some inner } } : StateM Session Unit) session' =
          ((), { after with log := session.log ++ [record] }) := by
      show (fun given : List (Except Fault Outcome) × Session => ((), { given.2 with
        log := given.2.log.modify session.log.length fun entry =>
          { entry with inner := some given.1 } }))
        (reaction.perform (performWith tell) session') = _
      rw [came]
      dsimp only
      rw [placed]
    have refused : record.Refused := by
      rintro inner ⟨⟩
      exact allRefused
    have same : { after with log := session.log ++ [record] }.bare = session'.bare := by
      show { after.bare with log := (session.log ++ [record]).map EventRecord.bare } = _
      rw [bare]
      simp only [session', Session.bare, List.map_append]
      rfl
    have still : after.phase ≠ .idle := fun idle =>
      busy.busy ((congrArg Session.phase bare).symm.trans idle)
    dsimp only
    rw [told, same]
    exact ⟨⟨still, (busy.noted refused).news⟩, rfl, rfl⟩

/-- Where nothing is done on an event, it is noted. -/
theorem tellBy_none {audience : Audience} {event : Event} {session : Session}
    (run : Command → Act Outcome) (nothing : audience event session = none) :
    tellBy audience run event session = note event session := by
  rw [tellBy_eq, nothing]
  rfl

theorem tellBy_nobody (run : Command → Act Outcome) : tellBy nobody run = note := rfl

theorem hearing_nobody (depth : Nat) : hearing nobody depth = note := by
  cases depth <;> exact tellBy_nobody _

theorem changesOnly_nobody : ChangesOnly nobody := by
  intro event session reaction given
  cases given

theorem shadowedTelling_note (start : List EventRecord) : ShadowedTelling start note := by
  have shadowed := shadowedTelling_tellBy note changesOnly_nobody start
  rwa [tellBy_nobody] at shadowed

/-! ## Changes of an idle session -/

/-- What two runs come to, the first of them heard: the same value or failure, and the same session
but for what listeners leave behind. The session is idle again, also after a failure, and of what
listeners gave since the start everything has been refused. -/
structure Alike (start : List EventRecord) (heard alone : Except Fault α × Session) : Prop where
  result : heard.1 = alone.1
  view : heard.2.bare = alone.2.bare
  idle : heard.2.phase = .idle
  news : ∃ news, heard.2.log = start ++ news ∧ ∀ record ∈ news, record.Refused

theorem alike_refl {session : Session} (idle : session.phase = .idle) (result : Except Fault α) :
    Alike session.log (result, session) (result, session) :=
  ⟨rfl, rfl, idle, [], (List.append_nil _).symm, by simp⟩

theorem Alike.finish {heard alone : Except Fault α × Session} (alike : Alike start heard alone)
    (turn : α → β) : Alike start (Act.finish turn heard) (Act.finish turn alone) where
  result := congrArg (Except.map turn) alike.result
  view := alike.view
  idle := alike.idle
  news := alike.news

/-- What is done in a phase comes to the same if events are noted only, and so if they are heard. -/
theorem alike_during {tell : Listener} {session : Session} {act : Listener → Act α}
    (phase : Phase) (applying : phase ≠ .idle) (heard : ∀ start, ShadowedTelling start tell)
    (shadowed : ∀ tell, ShadowedTelling session.log tell →
      (act tell).Shadowed session.log (act note) Eq) :
    Alike session.log ((during phase (act tell)).on session)
      ((during phase (act note)).on session) := by
  have busy : Busy session.log { session with phase } :=
    ⟨applying, [], (List.append_nil _).symm, by simp⟩
  obtain ⟨after, view, same⟩ := shadowed tell (heard _) _ busy
  obtain ⟨-, view', same'⟩ := shadowed note (shadowedTelling_note _) _ busy
  have alike : ((act tell).on { session with phase }).2.bare =
      ((act note).on { session with phase }).2.bare := view.symm.trans view'
  rw [Act.on_during, Act.on_during]
  exact ⟨same.eq.trans same'.eq.symm,
    congrArg (fun bare : Session => { bare with phase := .idle }) alike, rfl, after.news⟩

theorem alike_changeText {tell : Listener} {session : Session} (text : String)
    (idle : session.phase = .idle) (heard : ∀ start, ShadowedTelling start tell) :
    Alike session.log ((changeText tell text).on session) ((changeText note text).on session) := by
  unfold changeText changeTextWith
  rw [Act.on_get, Act.on_get]
  split
  · exact alike_refl idle _
  · apply alike_during .applyingText nofun heard
    intro tell heard
    exact Act.shadowed_lift (shadowed_followText heard text)

theorem alike_changeGraph {tell : Listener} {session : Session} (change : GraphChange)
    (idle : session.phase = .idle) (heard : ∀ start, ShadowedTelling start tell) :
    Alike session.log ((changeGraph tell change).on session)
      ((changeGraph note change).on session) := by
  have free : ¬session.phase ≠ .idle := fun busy => busy idle
  unfold changeGraph
  rw [Act.on_get, Act.on_get, if_neg free, if_neg free]
  apply alike_during .applyingGraph nofun heard
  intro tell heard
  refine Act.shadowed_get fun session busy => ?_
  dsimp only
  refine Act.shadowed_modify (fun _ busy => ⟨{ busy with }, rfl⟩) ?_
  have same : session.bare.graph = session.graph := rfl
  rw [same]
  cases (change session.graph).2 with
  | error fault => exact Act.shadowed_throw _ _
  | ok impact =>
    cases impact with
    | refused => exact Act.shadowed_pure _
    | silent =>
      refine (Act.shadowed_lift (shadowed_saveGraph heard)).then fun _ => ?_
      exact (Act.shadowed_lift (heard .graph)).then fun _ => Act.shadowed_pure _
    | visible =>
      refine (Act.shadowed_lift (shadowed_writeText heard)).then fun _ => ?_
      refine (Act.shadowed_lift (shadowed_saveGraph heard)).then fun _ => ?_
      exact (Act.shadowed_lift (heard .graph)).then fun _ => Act.shadowed_pure _

/-- An idle session, with the events so far. -/
def IdleWith (log : List EventRecord) (session : Session) : Prop :=
  session.phase = .idle ∧ session.log = log

theorem keepsIdle_ask (log : List EventRecord) (call : StoreCall) :
    Act.Keeps (IdleWith log) (ask call) fun _ => True := by
  intro session idle
  cases stored : session.storage with
  | none =>
    rw [Act.on_ask_none call stored]
    exact ⟨idle, fun _ _ => trivial⟩
  | some storage =>
    rw [Act.on_ask_some call stored]
    exact ⟨idle, fun _ _ => trivial⟩

/-- Loading tells an idle session's notice if the store cannot be read; all else is applied. -/
theorem alike_loadFlow {tell : Listener} {session : Session} (idle : session.phase = .idle)
    (heard : ∀ start, ShadowedTelling start tell)
    (quiet : ∀ session, session.phase = .idle → tell .notice session = note .notice session) :
    Alike session.log ((loadFlow tell).on session) ((loadFlow note).on session) := by
  unfold loadFlow
  rw [Act.on_get, Act.on_get]
  split
  · exact alike_refl idle _
  · rw [Act.on_lift, Act.on_lift]
    -- reading the flow tells nobody
    have read : IdleWith session.log ((readFlow session.setup.flow).run session).2 :=
      (Act.keeps_readFlow_of_ask (keepsIdle_ask _) _ session ⟨idle, rfl⟩).1
    revert read
    cases (readFlow session.setup.flow).run session with
    | mk result after =>
      rintro ⟨stillIdle, unlogged⟩
      cases result with
      | error fault =>
        have same : notify tell (failureNotice .persistence fault) after =
            notify note (failureNotice .persistence fault) after :=
          quiet { after with
            notices := after.notices ++ [failureNotice .persistence fault] } stillIdle
        dsimp only
        rw [Act.on_liftM, Act.on_liftM, same, ← unlogged]
        exact ⟨rfl, rfl, stillIdle, _, rfl, by rintro _ (_ | ⟨_, ⟨⟩⟩); exact nofun⟩
      | ok flow =>
        rw [← unlogged]
        apply alike_during .applyingGraph nofun heard
        intro tell heard
        refine (shadowed_takeRecords _ _).then fun graph => ?_
        refine Act.shadowed_modify (fun _ busy => ⟨{ busy with }, rfl⟩) ?_
        refine (Act.shadowed_lift (shadowed_writeText heard)).then fun _ => ?_
        exact (Act.shadowed_lift (heard .graph)).then fun _ => Act.shadowed_pure _

/-! ## Commands -/

/-- An operation of an idle session comes to the same, whether it is heard or not. -/
theorem alike_performWith {tell : Listener} {session : Session} {command : Command}
    (idle : session.phase = .idle) (heard : ∀ start, ShadowedTelling start tell)
    (quiet : ∀ session, session.phase = .idle → tell .notice session = note .notice session)
    (changes : command.isEdit = true ∨ command = .loadFlow) :
    Alike session.log ((performWith tell command).on session)
      ((performWith note command).on session) := by
  cases asks : command.change? session with
  | some change =>
    have drawn : (command.draw session).log = session.log := by cases command <;> rfl
    have still : (command.draw session).phase = .idle :=
      (command.echo_draw session).phase.trans idle
    rw [perform_change tell asks, perform_change note asks, ← drawn]
    exact (alike_changeGraph change still heard).finish _
  | none =>
    rcases changes with edit | rfl
    · cases command with
      | changeText change =>
        unfold performWith
        rw [Act.on_get, Act.on_get]
        dsimp only
        rw [Act.on_map, Act.on_map]
        exact (alike_changeText _ idle heard).finish _
      | update id fields =>
        rw [Command.change?] at asks
        cases names : Graph.nodeNames.find? fields.has with
        | none =>
          rw [names] at asks
          cases asks
        | some name =>
          unfold performWith
          rw [Act.on_get, Act.on_get]
          dsimp only
          rw [Act.on_map, Act.on_map, update, update, names]
          exact alike_refl idle _
      | addNode | removeNode | moveNode | connect | disconnect => cases asks
      | loadFlow | diagnose | restart | callStore => cases edit
    · rw [perform_loadFlow, perform_loadFlow]
      exact (alike_loadFlow idle heard quiet).finish _

/-- On the notices of an idle session an audience does nothing. -/
def QuietWhenIdle (audience : Audience) : Prop :=
  ∀ session, session.phase = .idle → audience .notice session = none

/-- **Listening is harmless.** An operation of an idle session comes to the same result, text,
graph, notices and store as if nobody listened, whatever changes are given on its events, however
they are chosen and to any depth; all of them are refused, and the session is idle afterwards. -/
theorem unheard {audience : Audience} {session : Session} {command : Command} (depth : Nat)
    (idle : session.phase = .idle) (operation : command.isEdit = true ∨ command = .loadFlow)
    (changes : ChangesOnly audience) (quiet : QuietWhenIdle audience) :
    Alike session.log ((performBy audience (depth + 1) command).on session)
      ((performBy nobody (depth + 1) command).on session) := by
  rw [performBy, performBy, hearing_nobody]
  have heard := shadowedTelling_tellBy (hearing audience depth) changes
  refine alike_performWith idle heard ?_ operation
  intro session idle
  exact tellBy_none _ (quiet session idle)

/-- An audience that answers each change with others, chosen by what it sees. -/
def busybody : Audience
  | .notice, _ => none
  | .text, session => some (.give (.changeText (.append session.text)) fun outcome _ =>
      match outcome with
      | .ok (.flag false) => .give .loadFlow fun _ _ => .rest
      | _ => .rest)
  | .graph, _ => some (.give (.addNode "variable" ⟨0, 0⟩ none) fun _ after =>
      .script (after.graph.nodes.map fun node => .removeNode node.id))

theorem unheard_busybody :
    Alike [] ((performBy busybody 3 (.addNode "variable" ⟨1, 2⟩ none)).on { setup := {} })
      ((performBy nobody 3 (.addNode "variable" ⟨1, 2⟩ none)).on { setup := {} }) := by
  have quiet : QuietWhenIdle busybody := fun _ _ => rfl
  refine @unheard busybody { setup := {} } (.addNode "variable" ⟨1, 2⟩ none) 2 rfl (.inl rfl)
    ?_ quiet
  have removing (nodes : List CanvasNode) :
      (Reaction.script (nodes.map fun node => .removeNode node.id)).Gives Command.IsChange := by
    induction nodes with
    | nil => trivial
    | cons node rest ih => exact ⟨trivial, fun _ _ => ih⟩
  intro event session reaction given
  cases event with
  | notice => cases given
  | text =>
    cases given
    refine ⟨trivial, fun outcome _ => ?_⟩
    dsimp only
    split
    · exact ⟨trivial, fun _ _ => trivial⟩
    · trivial
  | graph =>
    cases given
    exact ⟨trivial, fun _ after => removing after.graph.nodes⟩

end Session

end SourceCanvas
