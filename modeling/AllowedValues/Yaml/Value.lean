import AllowedValues.Yaml.Node

/-!
The value of a YAML stream: its node with every alias replaced by the value of the anchor it names.
Of several anchors of one name, an alias names the last one before it. An alias within the node of
its own anchor has no finite value.
-/

namespace AllowedValues.Yaml

/-- A value. A scalar is its text, together with whether it is written without quotes. -/
inductive Value where
  | scalar (text : Text) (plain : Bool)
  | sequence (items : List Value)
  | mapping (entries : List (Value × Value))
  /-- The value of an alias that stands within the node it names. -/
  | endless
deriving Repr

/-- The anchors in the order of the stream, each with its value once its node has ended. -/
abbrev Anchors := Array (Text × Option Value)

def Anchors.value? (anchors : Anchors) (name : Text) : Option Value :=
  (anchors.findRev? (·.1 = name)).map fun (_, value?) => value?.getD .endless

namespace Node

mutual

/-- The value of a node after the anchors before it, and the anchors after it. An alias without an
anchor has no value. -/
def value? (anchors : Anchors) : Node → Option (Value × Anchors)
  | scalar text plain => some (.scalar text plain, anchors)
  | sequence items =>
      (itemValues? anchors items).map fun (values, anchors) => (.sequence values, anchors)
  | mapping entries =>
      (entryValues? anchors entries).map fun (values, anchors) => (.mapping values, anchors)
  | reference name => (anchors.value? name).map (·, anchors)
  | anchored name node =>
      (value? (anchors.push (name, none)) node).map fun (value, after) =>
        (value, after.setIfInBounds anchors.size (name, some value))

def itemValues? (anchors : Anchors) : List Node → Option (List Value × Anchors)
  | [] => some ([], anchors)
  | node :: nodes => do
      let (value, anchors) ← value? anchors node
      let (values, anchors) ← itemValues? anchors nodes
      return (value :: values, anchors)

/-- The keys and values of the entries of a mapping. -/
def entryValues? (anchors : Anchors) : List (Node × Node) → Option (List (Value × Value) × Anchors)
  | [] => some ([], anchors)
  | (k, v) :: entries => do
      let (key, anchors) ← value? anchors k
      let (value, anchors) ← value? anchors v
      let (values, anchors) ← entryValues? anchors entries
      return ((key, value) :: values, anchors)

end

end Node

def Value.ofText? (source : Text) : Option Value := do
  let node ← Node.ofText? source
  let (value, _) ← node.value? #[]
  return value

end AllowedValues.Yaml
