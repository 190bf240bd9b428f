import SourceCanvas.Proofs.SessionLaws

/-!
# Invariants of acts

An act keeps an invariant if it holds of the session afterwards whenever it held before, whatever
came of the act (`Act.Keeps`); a value that comes of it may be known to fit, too. Steps that cannot
fail are treated alike (`Session.Keeps`). The rules follow the ways in which acts are put together,
so that an act keeps an invariant if each change in it does, down to what listeners are told.
-/

namespace SourceCanvas

variable {α β : Type} {good : Session → Prop}

namespace Session

/-! ## Steps -/

/-- Steps keep an invariant, and what comes of them fits. -/
def Keeps (good : Session → Prop) (steps : StateM Session α) (fits : α → Prop) : Prop :=
  ∀ session, good session → good (steps session).2 ∧ fits (steps session).1

/-- Telling listeners keeps an invariant. -/
def KeepsTelling (good : Session → Prop) (tell : Listener) : Prop :=
  ∀ event, Keeps good (tell event) fun _ => True

theorem keeps_pure {fits : α → Prop} {value : α} (fit : fits value) :
    Keeps good (pure value) fits :=
  fun _ kept => ⟨kept, fit⟩

theorem keeps_get : Keeps good get good := fun _ kept => ⟨kept, kept⟩

theorem keeps_set {session : Session} (kept : good session) :
    Keeps good (set session) fun _ => True :=
  fun _ _ => ⟨kept, trivial⟩

theorem keeps_modify {change : Session → Session}
    (keeps : ∀ session, good session → good (change session)) :
    Keeps good (modify change) fun _ => True :=
  fun session kept => ⟨keeps session kept, trivial⟩

theorem Keeps.bind {steps : StateM Session α} {next : α → StateM Session β} {fits : α → Prop}
    {fits' : β → Prop} (first : Keeps good steps fits)
    (second : ∀ value, fits value → Keeps good (next value) fits') :
    Keeps good (steps >>= next) fits' := by
  intro session kept
  obtain ⟨kept, fit⟩ := first session kept
  exact second _ fit _ kept

theorem Keeps.imp {steps : StateM Session α} {fits fits' : α → Prop}
    (keeps : Keeps good steps fits) (weaker : ∀ value, fits value → fits' value) :
    Keeps good steps fits' :=
  fun session kept => (keeps session kept).imp_right (weaker _)

theorem Keeps.any {steps : StateM Session α} {fits : α → Prop} (keeps : Keeps good steps fits) :
    Keeps good steps fun _ => True :=
  keeps.imp fun _ _ => trivial

theorem keeps_forM {each : α → StateM Session Unit} {list : List α}
    (keeps : ∀ a ∈ list, Keeps good (each a) fun _ => True) :
    Keeps good (list.forM each) fun _ => True := by
  induction list with
  | nil => exact keeps_pure trivial
  | cons a rest ih =>
    obtain ⟨first, later⟩ := List.forall_mem_cons.mp keeps
    exact first.bind fun _ _ => ih later

theorem keeps_mapM {each : α → StateM Session β} {list : List α}
    (keeps : ∀ a ∈ list, Keeps good (each a) fun _ => True) :
    Keeps good (list.mapM each) fun _ => True := by
  induction list with
  | nil => exact keeps_pure trivial
  | cons a rest ih =>
    obtain ⟨first, later⟩ := List.forall_mem_cons.mp keeps
    rw [List.mapM_cons]
    exact first.bind fun _ _ => (ih later).bind fun _ _ => keeps_pure trivial

end Session

namespace Act

/-! ## Acts -/

/-- An act keeps an invariant, also if it fails, and a value that comes of it fits. -/
def Keeps (good : Session → Prop) (act : Act α) (fits : α → Prop) : Prop :=
  ∀ session, good session → good (act.on session).2 ∧
    ∀ value, (act.on session).1 = .ok value → fits value

theorem keeps_pure {fits : α → Prop} {value : α} (fit : fits value) :
    Act.Keeps good (pure value) fits := by
  intro session kept
  refine ⟨kept, ?_⟩
  rintro _ ⟨⟩
  exact fit

theorem keeps_throw (fault : Fault) (fits : α → Prop) : Act.Keeps good (throw fault) fits := by
  intro session kept
  refine ⟨kept, ?_⟩
  rintro _ ⟨⟩

theorem keeps_get : Act.Keeps good get good := by
  intro session kept
  refine ⟨kept, ?_⟩
  rintro _ ⟨⟩
  exact kept

theorem keeps_set {session : Session} (kept : good session) :
    Act.Keeps good (set session) fun _ => True :=
  fun _ _ => ⟨kept, fun _ _ => trivial⟩

theorem keeps_modify {change : Session → Session}
    (keeps : ∀ session, good session → good (change session)) :
    Act.Keeps good (modify change) fun _ => True :=
  fun session kept => ⟨keeps session kept, fun _ _ => trivial⟩

theorem Keeps.bind {act : Act α} {next : α → Act β} {fits : α → Prop} {fits' : β → Prop}
    (first : act.Keeps good fits) (second : ∀ value, fits value → (next value).Keeps good fits') :
    (act >>= next).Keeps good fits' := by
  intro session kept
  obtain ⟨kept, fit⟩ := first session kept
  rw [on_bind]
  cases came : act.on session with
  | mk result after =>
    rw [came] at kept fit
    cases result with
    | ok value => exact second value (fit value rfl) after kept
    | error fault =>
      refine ⟨kept, ?_⟩
      rintro _ ⟨⟩

theorem Keeps.imp {act : Act α} {fits fits' : α → Prop} (keeps : act.Keeps good fits)
    (weaker : ∀ value, fits value → fits' value) : act.Keeps good fits' :=
  fun session kept => (keeps session kept).imp_right fun fit value came => weaker _ (fit value came)

theorem Keeps.any {act : Act α} {fits : α → Prop} (keeps : act.Keeps good fits) :
    act.Keeps good fun _ => True :=
  keeps.imp fun _ _ => trivial

/-- What is turned into something else. -/
theorem Keeps.map {act : Act α} (keeps : act.Keeps good fun _ => True) (turn : α → β) :
    Act.Keeps good (act >>= fun value => pure (turn value)) fun _ => True :=
  keeps.bind fun _ _ => keeps_pure trivial

/-- Steps that cannot fail, as an act. -/
theorem keeps_lift {steps : StateM Session α} {fits : α → Prop}
    (keeps : Session.Keeps good steps fits) : Act.Keeps good (ExceptT.lift steps) fits := by
  intro session kept
  obtain ⟨kept, fit⟩ := keeps session kept
  refine ⟨kept, ?_⟩
  rintro _ ⟨⟩
  exact fit

/-- An act, as steps that come to a result. -/
theorem Keeps.run {act : Act α} {fits : α → Prop} (keeps : act.Keeps good fits) :
    Session.Keeps good act.run fun result => ∀ value, result = .ok value → fits value :=
  keeps

theorem keeps_forM {each : α → Act Unit} {list : List α}
    (keeps : ∀ a ∈ list, (each a).Keeps good fun _ => True) :
    Act.Keeps good (list.forM each) fun _ => True := by
  induction list with
  | nil => exact keeps_pure trivial
  | cons a rest ih =>
    obtain ⟨first, later⟩ := List.forall_mem_cons.mp keeps
    exact first.bind fun _ _ => ih later

/-- What is built up from the elements of a list fits all along. -/
theorem keeps_foldlM {each : β → α → Act β} {fits : β → Prop} {list : List α} {start : β}
    (fit : fits start) (keeps : ∀ a ∈ list, ∀ sofar, fits sofar → (each sofar a).Keeps good fits) :
    Act.Keeps good (list.foldlM each start) fits := by
  induction list generalizing start with
  | nil => exact keeps_pure fit
  | cons a rest ih =>
    obtain ⟨first, later⟩ := List.forall_mem_cons.mp keeps
    exact (first start fit).bind fun sofar fit => ih fit later

/-- What is done in a phase keeps an invariant that is not about phases. -/
theorem Keeps.during {act : Act α} {fits : α → Prop} (keeps : act.Keeps good fits)
    (timeless : ∀ session phase, good session → good { session with phase }) (phase : Phase) :
    Act.Keeps good (Session.during phase act) fits := by
  intro session kept
  rw [on_during]
  obtain ⟨kept, fit⟩ := keeps _ (timeless session phase kept)
  exact ⟨timeless _ _ kept, fit⟩

/-- Reading a flow keeps what each call of the store keeps. -/
theorem keeps_readFlow_of_ask (asked : ∀ call, (Session.ask call).Keeps good fun _ => True)
    (flow : Option String) : (Session.readFlow flow).Keeps good fun _ => True := by
  refine (asked (.listNodes flow)).bind fun nodes _ => ?_
  refine (asked (.listEdges flow)).bind fun edges _ => ?_
  split
  · exact keeps_pure trivial
  · exact keeps_pure trivial

end Act

/-! ## Listeners -/

namespace Session

variable {tell : Listener}

theorem keeps_notify (heard : KeepsTelling good tell)
    (unseen : ∀ session notices, good session → good { session with notices }) (notice : Notice) :
    Keeps good (notify tell notice) fun _ => True :=
  (keeps_modify fun session kept => unseen session _ kept).bind fun _ _ => heard .notice

theorem keeps_attempt (heard : KeepsTelling good tell)
    (unseen : ∀ session notices, good session → good { session with notices })
    (collaborator : Collaborator) {act : Act Unit} (keeps : act.Keeps good fun _ => True) :
    Keeps good (attempt tell collaborator act) fun _ => True := by
  refine keeps.run.bind fun result _ => ?_
  cases result with
  | ok value => exact keeps_pure trivial
  | error fault => exact keeps_notify heard unseen _

/-- Telling keeps an invariant if the commands do that are given on events. -/
theorem keepsTelling_tellWith {run : Command → Act Outcome}
    (unlogged : ∀ session log, good session → good { session with log })
    (keeps : ∀ event commands, ∀ session, good session →
      session.setup.listeners.lookup event = some commands →
        ∀ command ∈ commands, (run command).Keeps good fun _ => True) :
    KeepsTelling good (tellWith run) := by
  intro event session kept
  have logged := unlogged session (session.log ++ [{ event, phase := session.phase }]) kept
  unfold tellWith
  simp only [bind, StateT.bind, get, getThe, MonadStateOf.get, StateT.get, pure, set_run]
  cases found : session.setup.listeners.lookup event with
  | none => exact ⟨logged, trivial⟩
  | some commands =>
    have heard : Keeps good (commands.mapM fun command => (run command).run) fun _ => True :=
      keeps_mapM fun command member =>
        (keeps event commands session kept found command member).run.any
    exact (heard.bind fun _ _ => keeps_modify fun after => unlogged after _) _ logged

end Session

end SourceCanvas
