import AllowedValues.Source.Token

/-!
Calls of one function of one package in a source text, nested ones included. A package that is
itself selected from something, as in `x.package.function(…)`, is another one.
-/

namespace AllowedValues.Source

structure Call where
  /-- The byte position of the package name. -/
  start : Nat
  /-- The byte position just after the closing parenthesis. -/
  stop : Nat
  /-- The text between the parentheses. -/
  arguments : Text
deriving DecidableEq, Repr

/-- The call that tokens begin with, if they do: the name of the package, a dot, the name of the
function and an opening parenthesis. `all` are the tokens of the whole text. -/
def callAtHead? (source package function : Text) (all : List Token) : List Token → Option Call
  | pkg :: dot :: name :: opening :: _ =>
      if pkg.kind = .ident ∧ pkg.text = package ∧ dot.kind = .dot ∧
          name.kind = .ident ∧ name.text = function ∧ opening.kind = .opening .paren then
        (opening.close.bind (all[·]?)).map fun close =>
          { start := pkg.start
            stop := close.stop
            arguments := source.slice opening.stop close.start }
      else none
  | _ => none

/-- The calls among the tokens `ts` that come after a token of the kind `previous`. -/
def callsAfter (source package function : Text) (all : List Token) :
    Option Kind → List Token → List Call
  | _, [] => []
  | previous, t :: ts =>
      let rest := callsAfter source package function all (some t.kind) ts
      if previous = some .dot then rest
      else (callAtHead? source package function all (t :: ts)).toList ++ rest

/-- All calls of a function in source order. A text that is not well formed has none. -/
def calls (package function source : Text) : List Call :=
  match tokens? source with
  | none => []
  | some ts => callsAfter source package function ts none ts

end AllowedValues.Source
