/-!
# Documents

Trees of named values, as settings are written in them.  One document is laid over another name by name.
-/

namespace SpeechDispatch

inductive Document
  | null
  | bool (value : Bool)
  | integer (value : Int)
  | float (value : Float)
  | text (value : String)
  /-- A date, a time, or both, as they are written out. -/
  | date (text : String)
  | list (items : List Document)
  | table (members : List (String × Document))
  deriving Inhabited

namespace Document

/-- The value under a name. -/
def get? (document : Document) (name : String) : Option Document :=
  match document with
  | table members => members.lookup name
  | _ => none

/-- Members with one set, in its place if the name is there and last if not. -/
def setMember (name : String) (value : Document) : List (String × Document) → List (String × Document)
  | [] => [(name, value)]
  | member :: rest => if member.1 = name then (name, value) :: rest else member :: setMember name value rest

mutual

/-- One document laid over another: tables member by member, anything else in place of what is below. -/
def overlay (below : Document) : Document → Document
  | table members =>
    match below with
    | table old => table (overlayMembers old members)
    | _ => table members
  | above => above

/-- Members laid over others. -/
def overlayMembers (below : List (String × Document)) : List (String × Document) → List (String × Document)
  | [] => below
  | (name, above) :: rest =>
    let value := match below.lookup name with
      | some old => overlay old above
      | none => above
    overlayMembers (setMember name value below) rest

end

end Document

end SpeechDispatch
