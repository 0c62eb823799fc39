import AllowedValues.Command.Switch

/-!
Reading the arguments of one level. They are read from left to right, and the first of them that
cannot be right, or that asks for help or for the version, decides. The value of an option that is
an argument of its own is taken over when the next argument is read.
-/

namespace AllowedValues.Command

/-- Why a command line is not carried out. -/
inductive Halt where
  | misuse
  | help
  | version
deriving DecidableEq, Repr

structure Given where
  settingsPath? : Option Text := none
  description? : Option Text := none
  style? : Option Style := none
  operands : List Text := []
deriving DecidableEq, Repr

/-- Takes over the value of an option, which may be given once. -/
def Given.put (g : Given) : Switch → Text → Except Halt Given
  | .settings, v =>
      if g.settingsPath?.isSome then .error .misuse else .ok { g with settingsPath? := some v }
  | .description, v =>
      if g.description?.isSome then .error .misuse else .ok { g with description? := some v }
  | .style, v =>
      match Style.ofName? v with
      | none => .error .misuse
      | some style =>
          if g.style?.isSome then .error .misuse else .ok { g with style? := some style }
  | .verbose, _ | .help, _ | .version, _ => .error .misuse

/-- An option that is not done with. -/
inductive Pending where
  | nothing
  /-- The value comes next. -/
  | awaited (option : Switch)
  /-- The value has come. -/
  | arrived (option : Switch) (value : Text)
deriving DecidableEq, Repr

/-- The arguments of a level as far as they have been read. -/
structure Reading where
  given : Given := {}
  pending : Pending := .nothing
  operandsOnly : Bool := false
deriving DecidableEq, Repr

namespace Reading

/-- Takes over the value of the option that is pending. -/
def settle (r : Reading) : Except Halt Reading :=
  match r.pending with
  | .nothing => .ok r
  | .awaited _ => .error .misuse
  | .arrived option v => do return { r with given := ← r.given.put option v, pending := .nothing }

def readFlag (r : Reading) : Switch → Except Halt Reading
  | .help => .error .help
  | .version => .error .version
  | _ => .ok r

/-- Reads an option whose value is attached to it, or else comes next. -/
def readOption (r : Reading) (option : Switch) : Option Text → Except Halt Reading
  | some v => do return { r with given := ← r.given.put option v }
  | none => .ok { r with pending := .awaited option }

/-- Reads switches by their letters. What follows on the letter of an option is its value. -/
def readLetters (level : Level) (r : Reading) : Text → Except Halt Reading
  | [] => .ok r
  | c :: rest =>
      match level.switches.find? (·.letter = c) with
      | none => .error .misuse
      | some switch =>
          if switch.takesValue then
            match rest with
            | [] => r.readOption switch none
            | '=' :: v => r.readOption switch (some v)
            | v => r.readOption switch (some v)
          else do readLetters level (← r.readFlag switch) rest

/-- Reads a switch by its name, with a value after an equals sign. -/
def readName (level : Level) (r : Reading) (text : Text) : Except Halt Reading :=
  let name := text.takeWhile (· ≠ '=')
  match level.switches.find? (·.name = name), text.drop name.length with
  | none, _ => .error .misuse
  | some switch, [] => if switch.takesValue then r.readOption switch none else r.readFlag switch
  | some switch, _ :: v =>
      if switch.takesValue then r.readOption switch (some v) else .error .misuse

def readOperand (level : Level) (r : Reading) (operand : Text) : Except Halt Reading :=
  if level.operandLimit?.any (· ≤ r.given.operands.length) then .error .misuse
  else .ok { r with given := { r.given with operands := r.given.operands ++ [operand] } }

def step (level : Level) (r : Reading) (argument : Text) : Except Halt Reading :=
  match r.operandsOnly, argument, r.pending with
  | true, _, _ => do readOperand level (← r.settle) argument
  | false, ['-', '-'], _ => .ok { r with operandsOnly := true }
  | false, '-' :: '-' :: text, _ => do readName level (← r.settle) text
  | false, '-' :: c :: rest, _ => do readLetters level (← r.settle) (c :: rest)
  | false, _, .awaited option => .ok { r with pending := .arrived option argument }
  | false, _, _ => do readOperand level (← r.settle) argument

/-- Whether the next argument may be the name of an action. -/
def mayAct (r : Reading) : Bool :=
  !r.operandsOnly && match r.pending with
    | .awaited _ => false
    | _ => true

end Reading

/-- What the arguments of a level give, once they are all read. -/
def Level.read (level : Level) (arguments : List Text) : Except Halt Given := do
  let r ← arguments.foldlM (Reading.step level) {}
  return (← r.settle).given

end AllowedValues.Command
