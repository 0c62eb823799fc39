import AllowedValues.Json.Token

/-!
The tree of a JSON document, as far as the text is one. Where a token cannot come next, the tree is
broken: the containers that are still open end with a broken part. So the tree shows everything
that was read before the fault, in the order of the text.
-/

namespace AllowedValues.Json

/-- A value of a document. A member of an object has a key unless the key has no text. -/
inductive Tree where
  | null
  | boolean (value : Bool)
  | number (value? : Option Number)
  | string (value? : Option Text)
  | array (items : List Tree)
  | object (members : List (Option Text × Tree))
  /-- The place of a value that the text does not have. -/
  | broken
deriving Repr

/-- A document: a value, and whether nothing comes after it. -/
structure Document where
  root : Tree
  complete : Bool
deriving Repr

/-- A container that is still open, with the parts before the one being read, the last one first. -/
inductive Frame where
  | array (before : List Tree)
  | object (before : List (Option Text × Tree)) (key : Option Text)
deriving Repr

/-- The container, closed after one more part. -/
def Frame.closeWith (t : Tree) : Frame → Tree
  | .array before => .array (t :: before).reverse
  | .object before key => .object ((key, t) :: before).reverse

/-- What has to come next. -/
inductive Reading where
  /-- A value, inside of the open containers. The array that has just begun may end instead. -/
  | value (mayClose : Bool) (stack : List Frame)
  /-- A key of the innermost object. The object that has just begun may end instead. -/
  | key (mayClose : Bool) (before : List (Option Text × Tree)) (stack : List Frame)
  /-- The colon after a key. -/
  | colon (before : List (Option Text × Tree)) (key : Option Text) (stack : List Frame)
  /-- What follows on a value: a comma or the end of the innermost container, or of the text. -/
  | after (t : Tree) (stack : List Frame)
  /-- Nothing: the text has ceased to be a document. -/
  | stopped (document : Document)
deriving Repr

namespace Reading

def finish : Reading → Document
  | value _ stack => cut .broken stack
  | key _ before stack => cut (.object ((none, .broken) :: before).reverse) stack
  | colon before k stack => cut (.object ((k, .broken) :: before).reverse) stack
  | after t [] => ⟨t, true⟩
  | after t (.array before :: stack) => cut (.array (.broken :: t :: before).reverse) stack
  | after t (.object before k :: stack) =>
      cut (.object ((none, .broken) :: (k, t) :: before).reverse) stack
  | stopped document => document
where
  /-- The document that breaks off within the containers of the stack. -/
  cut (t : Tree) (stack : List Frame) : Document :=
    ⟨stack.foldl (fun t f => f.closeWith t) t, false⟩

/-- The end of reading at a token that cannot come next. -/
def stop (r : Reading) : Reading := stopped { r.finish with complete := false }

def readValue (mayClose : Bool) (stack : List Frame) (token : Token) : Reading :=
  match token, mayClose, stack with
  | .null, _, _ => after .null stack
  | .boolean b, _, _ => after (.boolean b) stack
  | .number n?, _, _ => after (.number n?) stack
  | .string s?, _, _ => after (.string s?) stack
  | .openArray, _, _ => value true (.array [] :: stack)
  | .openObject, _, _ => key true [] stack
  | .closeArray, true, .array before :: stack => after (.array before.reverse) stack
  | _, _, _ => (value mayClose stack).stop

def readAfter (t : Tree) (stack : List Frame) (token : Token) : Reading :=
  match token, stack with
  | .comma, .array before :: stack => value false (.array (t :: before) :: stack)
  | .comma, .object before k :: stack => key false ((k, t) :: before) stack
  | .closeArray, .array before :: stack => after (.array (t :: before).reverse) stack
  | .closeObject, .object before k :: stack => after (.object ((k, t) :: before).reverse) stack
  | _, _ => (after t stack).stop

def step (r : Reading) (token : Token) : Reading :=
  match r, token with
  | value mayClose stack, _ => readValue mayClose stack token
  | key _ before stack, .string k => colon before k stack
  | key true before stack, .closeObject => after (.object before.reverse) stack
  | colon before k stack, .colon => value false (.object before k :: stack)
  | after t stack, _ => readAfter t stack token
  | stopped document, _ => stopped document
  | _, _ => r.stop

end Reading

def Document.read (s : Text) : Document :=
  ((tokens s).foldl Reading.step (.value false [])).finish

mutual

/-- Whether a value is whole, whatever its numbers and strings are. -/
def Tree.isWhole : Tree → Bool
  | .broken => false
  | .array items => itemsWhole items
  | .object members => membersWhole members
  | _ => true

def itemsWhole : List Tree → Bool
  | [] => true
  | t :: ts => t.isWhole && itemsWhole ts

/-- Whether the values of all members of an object are whole. -/
def membersWhole : List (Option Text × Tree) → Bool
  | [] => true
  | (_, t) :: ms => t.isWhole && membersWhole ms

end

end AllowedValues.Json
