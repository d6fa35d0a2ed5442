import SpeechDispatch.Toml.Statement

/-!
# The document that TOML statements build

Every table is opened once at most and every key is assigned once.  Tables on the way to one that is opened come into
being by themselves and may be opened later; tables made by the dots of keys may get more keys, but are not opened.
-/

namespace SpeechDispatch.Toml

/-- How a table came into being. -/
inductive Origin
  | opened
  /-- On the way to a table that was opened. -/
  | passed
  | dotted
  deriving DecidableEq

inductive Node
  | value (document : Document)
  | table (origin : Origin) (members : List (String × Node))
  /-- A list of tables, the last one first. -/
  | items (tables : List (List (String × Node)))
  deriving Inhabited

abbrev Members := List (String × Node)

/-- Members with one replaced, or added at the end. -/
def replaceMember (key : String) (node : Node) : Members → Members
  | [] => [(key, node)]
  | member :: rest => if member.1 = key then (key, node) :: rest else member :: replaceMember key node rest

/-- Assigns a value under a path of keys.  The table it goes into was made by dots, if it is not the one at hand. -/
def assign : List String → Document → Members → Option Members
  | [], _, _ => none
  | [key], value, members => if (members.lookup key).isSome then none else some (members ++ [(key, .value value)])
  | key :: path, value, members =>
    match members.lookup key with
    | none => (assign path value []).map fun inner => members ++ [(key, .table .dotted inner)]
    | some (.table .dotted inner) =>
      (assign path value inner).map fun inner => replaceMember key (.table .dotted inner) members
    | some (.table .passed inner) =>
      if path.length = 1 then none
      else (assign path value inner).map fun inner => replaceMember key (.table .passed inner) members
    | some (.items (last :: before)) =>
      if path.length = 1 then none
      else (assign path value last).map fun last => replaceMember key (.items (last :: before)) members
    | some _ => none

/-- Changes the members of a table that was opened, or of the last of a list of tables. -/
def within (change : Members → Option Members) : List String → Members → Option Members
  | [], members => change members
  | key :: path, members =>
    match members.lookup key with
    | some (.table origin inner) =>
      (within change path inner).map fun inner => replaceMember key (.table origin inner) members
    | some (.items (last :: before)) =>
      (within change path last).map fun last => replaceMember key (.items (last :: before)) members
    | _ => none

/-- Makes a table at the end of a path with `place`; tables on the way come into being. -/
def make (place : String → Members → Option Members) : List String → Members → Option Members
  | [], _ => none
  | [key], members => place key members
  | key :: path, members =>
    match members.lookup key with
    | none => (make place path []).map fun inner => members ++ [(key, .table .passed inner)]
    | some (.table origin inner) =>
      (make place path inner).map fun inner => replaceMember key (.table origin inner) members
    | some (.items (last :: before)) =>
      (make place path last).map fun last => replaceMember key (.items (last :: before)) members
    | some _ => none

/-- Opens a table, which is new or was only passed so far. -/
def placeTable (key : String) (members : Members) : Option Members :=
  match members.lookup key with
  | none => some (members ++ [(key, .table .opened [])])
  | some (.table .passed inner) => some (replaceMember key (.table .opened inner) members)
  | some _ => none

/-- Opens one more item of a list of tables. -/
def placeItem (key : String) (members : Members) : Option Members :=
  match members.lookup key with
  | none => some (members ++ [(key, .items [[]])])
  | some (.items tables) => some (replaceMember key (.items ([] :: tables)) members)
  | some _ => none

mutual

/-- What a node holds. -/
def Node.toDocument : Node → Document
  | .value document => document
  | .table _ members => .table (documents members)
  | .items tables => .list (tableDocuments tables).reverse

def documents : List (String × Node) → List (String × Document)
  | [] => []
  | (key, node) :: rest => (key, node.toDocument) :: documents rest

def tableDocuments : List (List (String × Node)) → List Document
  | [] => []
  | members :: rest => .table (documents members) :: tableDocuments rest

end

mutual

/-- What a value holds, if its tables in braces have no key twice. -/
def Value.toDocument? : Value → Option Document
  | .scalar document => some document
  | .array items => (itemDocuments? items).map .list
  | .inlineTable members => (inlineMembers? [] members).map fun members => .table (documents members)

def itemDocuments? : List Value → Option (List Document)
  | [] => some []
  | item :: rest =>
    match item.toDocument? with
    | none => none
    | some document => (itemDocuments? rest).map (document :: ·)

/-- The members of a table in braces after those at hand. -/
def inlineMembers? (members : Members) : List (List String × Value) → Option Members
  | [] => some members
  | (path, value) :: rest =>
    match value.toDocument? with
    | none => none
    | some document =>
      match assign path document members with
      | none => none
      | some members => inlineMembers? members rest

end

/-- What was built so far, and the path of the table that is open. -/
structure Draft where
  members : Members := []
  current : List String := []

def Draft.step (draft : Draft) : Statement → Option Draft
  | .assign path value =>
    value.toDocument?.bind fun document =>
      (within (assign path document) draft.current draft.members).map fun members => { draft with members }
  | .openTable path => (make placeTable path draft.members).map fun members => ⟨members, path⟩
  | .openItem path => (make placeItem path draft.members).map fun members => ⟨members, path⟩

/-- The document that statements build. -/
def build? (statements : List Statement) : Option Document :=
  (statements.foldlM Draft.step {}).map fun draft => .table (documents draft.members)

/-- The document that a text writes. -/
def document? (text : String) : Option Document := (statements? text).bind build?

end SpeechDispatch.Toml
