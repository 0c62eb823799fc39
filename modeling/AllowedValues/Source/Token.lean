import AllowedValues.Source.Piece

/-!
Tokens are the code units of a text with their places. A text has tokens if it can be cut, its
brackets match, and every comma ends a list element: none comes right after an opening bracket or
another comma.
-/

namespace AllowedValues.Source

/-- A code unit at its place. -/
structure Token where
  kind : Kind
  /-- The byte position of its first character. -/
  start : Nat
  text : Text
  /-- For an opening bracket, the index of the token that closes it. -/
  close : Option Nat := none
deriving DecidableEq, Repr

/-- The byte position just after a token. -/
def Token.stop (t : Token) : Nat := t.start + t.text.byteSize

/-- The code units among pieces that begin at byte `start`, each at its place. -/
def locate (start : Nat) : List Piece → List Token
  | [] => []
  | p :: ps =>
      let rest := locate (start + p.text.byteSize) ps
      match p.role with
      | .code kind => { kind, start, text := p.text } :: rest
      | _ => rest

/-- Whether a list element is still to come after a unit of this kind. -/
def Kind.awaitsElement : Kind → Bool
  | .opening _ => true
  | .comma => true
  | _ => false

/-- Every comma comes after a unit that can end a list element, or first of all. -/
def commasSettled : List Kind → Bool
  | [] => true
  | [_] => true
  | k :: l :: ks => !(k.awaitsElement && l = .comma) && commasSettled (l :: ks)

/-- Matches brackets, for units whose first has index `i`: the index of the closing bracket for
every unit, and the closing brackets that are left over, which belong to units further left. -/
def matchFrom (i : Nat) : List Kind → Option (List (Option Nat) × List (Bracket × Nat))
  | [] => some ([], [])
  | k :: ks =>
      match matchFrom (i + 1) ks with
      | none => none
      | some (closes, waiting) =>
          match k, waiting with
          | .opening b, (b', j) :: waiting' =>
              if b = b' then some (some j :: closes, waiting') else none
          | .opening _, [] => none
          | .closing b, _ => some (none :: closes, (b, i) :: waiting)
          | _, _ => some (none :: closes, waiting)

/-- The index of the closing bracket for every unit, if all brackets match. -/
def bracketMatches? (kinds : List Kind) : Option (List (Option Nat)) :=
  match matchFrom 0 kinds with
  | some (closes, []) => some closes
  | _ => none

/-- The tokens of a text, if it is well formed. -/
def tokens? (source : Text) : Option (List Token) :=
  match Piece.cut? source with
  | none => none
  | some pieces =>
      let units := locate 0 pieces
      let kinds := units.map (·.kind)
      if commasSettled kinds then
        (bracketMatches? kinds).map fun closes =>
          units.zipWith (fun t close => { t with close }) closes
      else none

end AllowedValues.Source
