import AllowedValues.Command.Given

/-!
What a command line asks for.
-/

namespace AllowedValues.Command

inductive Task where
  | enrich (description : Option Text) (fragments : List Text)
  | file (path : Text) (style : Style)
  | values (fragment : Text)
deriving DecidableEq, Repr

/-- A task and the path of the settings to do it with. -/
structure Invocation where
  settingsPath? : Option Text
  task : Task
deriving DecidableEq, Repr

/-- The task of an action, if it has the operands that it needs. -/
def Action.task (action : Action) (g : Given) : Except Halt Task :=
  match action, g.operands with
  | enrich, fragment :: fragments => .ok (.enrich g.description? (fragment :: fragments))
  | file, [path] => .ok (.file path (g.style?.getD .text))
  | values, [fragment] => .ok (.values fragment)
  | _, _ => .error .misuse

/-- Reads the names after the request for help. One action may be named, or the request itself. -/
def readHelp : List Text → Halt
  | [] => .help
  | [name] => if name = "help".toList ∨ (Action.ofName? name).isSome then .help else .misuse
  | _ => .misuse

namespace Invocation

/-- Reads the arguments from the outer level on. The path of settings that is given to the action
counts before the one of the outer level. -/
def readFrom (r : Reading) : List Text → Except Halt Invocation
  | [] => .error .misuse
  | argument :: arguments =>
      if r.mayAct && argument = "help".toList then .error (readHelp arguments)
      else
        match Action.ofName? argument with
        | none => do readFrom (← r.step .outer argument) arguments
        | some action =>
            if r.mayAct then do
              let inner ← action.level.read arguments
              let task ← action.task inner
              let outer ← r.settle
              return ⟨inner.settingsPath? <|> outer.given.settingsPath?, task⟩
            else do readFrom (← r.step .outer argument) arguments

def ofArguments (arguments : List Text) : Except Halt Invocation := readFrom {} arguments

end Invocation

end AllowedValues.Command
