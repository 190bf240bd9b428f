import SourceCanvas.Graph.Reference
import SourceCanvas.Session.Change
import SourceCanvas.Text.Replace

/-!
# Commands to a session

`Session.perform` does what a command says. When it tells about an event, the commands that are
given on that event are done too, and the log keeps what came of them. A depth bounds how far
commands on events of commands are followed.
-/

namespace SourceCanvas

/-- The text after an edit. -/
def TextEdit.apply (edit : TextEdit) (text : String) : String :=
  match edit with
  | whole text => text
  | append added => text ++ added
  | replace old new => String.ofList (Text.replace old.toList new.toList text.toList)

namespace Session

/-- Keeps an event in the log and has the commands done that are given on it. -/
def tellWith (run : Command → Act Outcome) : Listener := fun event => do
  let session ← get
  let place := session.log.length
  let entry : EventRecord := { event, phase := session.phase }
  set { session with log := session.log ++ [entry] }
  match session.setup.listeners.lookup event with
  | none => return
  | some commands =>
    let inner ← commands.mapM fun command => (run command).run
    modify fun session =>
      { session with
        log := session.log.modify place fun entry => { entry with inner := some inner } }

/-- Does what a command says, with a way to tell about events. -/
def performWith (tell : Listener) (command : Command) : Act Outcome := do
  let session ← get
  let resolve (id : String) : String := session.graph.resolve id
  match command with
  | .changeText edit => return .flag (← changeText tell (edit.apply session.text))
  | .addNode kind position parent =>
    return .id (← addNode tell kind position (parent.map resolve))
  | .removeNode id => return .flag (← removeNode tell (resolve id))
  | .moveNode id position => return .flag (← moveNode tell (resolve id) position)
  | .connect source target sourceHandle targetHandle =>
    return .id (← connect tell (resolve source) (resolve target) sourceHandle targetHandle)
  | .disconnect id => return .flag (← disconnect tell (resolve id))
  | .update id changes => return .flag (← update tell (resolve id) changes)
  | .loadFlow => return .flag (← loadFlow tell)
  | .diagnose => return .findings (← diagnose tell)
  | .restart =>
    set session.restarted
    return .done
  | .callStore call => return .reply (← ask call)

/-- Does what a command says. On events beyond the depth no commands are followed. -/
def perform : Nat → Command → Act Outcome
  | 0 => performWith (tellWith fun _ => return .done)
  | depth + 1 => performWith (tellWith (perform depth))

end Session

end SourceCanvas
