import SpeechDispatch.Document
import SpeechDispatch.Net.Address

/-!
# Sources laid over one another

A source gives values under names.  A name is a path: names of members with dots between them, and places in lists in
brackets.  A name that is no such path stands for itself.
-/

namespace SpeechDispatch

/-- A step into a document. -/
inductive DocumentStep
  | member (name : String)
  /-- A place in a list, counted from its end if it is negative. -/
  | place (index : Int)
  deriving DecidableEq

namespace DocumentStep

def isNameChar (c : Char) : Bool := c.isAlphanum || c == '_' || c == '-'

/-- A place between its brackets, of which the first one is cut off. -/
def place? (piece : List Char) : Option DocumentStep :=
  match piece.takeWhile (· ≠ ']'), piece.dropWhile (· ≠ ']') with
  | '-' :: digits, [']'] => (Net.digits? Net.decimalValue? 10 digits).map fun n => place (-(n : Int))
  | digits, [']'] => (Net.digits? Net.decimalValue? 10 digits).map fun n => place n
  | _, _ => none

/-- The steps in a part of a path between dots: a name, and places after it. -/
def ofPart? (part : List Char) : Option (List DocumentStep) :=
  match Net.splitAt '[' part with
  | name :: places =>
    if name.isEmpty || !name.all isNameChar then none
    else (places.mapM place?).map (member (String.ofList name) :: ·)
  | [] => none

/-- The steps of a path. -/
def ofName (name : String) : List DocumentStep :=
  (((Net.splitAt '.' name.toList).mapM ofPart?).map List.flatten).getD [member name]

end DocumentStep

namespace Document

/-- The items of a list; anything else has none. -/
def items : Document → List Document
  | list items => items
  | _ => []

def members : Document → List (String × Document)
  | table members => members
  | _ => []

/-- Changes the item at a place of a list, which grows as far as needed. -/
def changeItem (change : Document → Document) (index : Int) (items : List Document) : List Document :=
  let items := if index < 0 then List.replicate (index.natAbs - items.length) null ++ items else items
  let at_ := if index < 0 then items.length - index.natAbs else index.toNat
  let items := items ++ List.replicate (at_ + 1 - items.length) null
  items.mapIdx fun i item => if i = at_ then change item else item

/-- Changes what is at the end of a path.  What is missing on the way comes into being, and what has no members or
items gives way. -/
def changeAt (change : Document → Document) : List DocumentStep → Document → Document
  | [], document => change document
  | .member name :: path, document =>
    table (setMember name (changeAt change path ((document.members.lookup name).getD null)) document.members)
  | .place index :: path, document => list (changeItem (changeAt change path) index document.items)

/-- A document with the values of a source laid over it. -/
def layOver (below : Document) (source : List (String × Document)) : Document :=
  source.foldl (fun document (name, value) => document.changeAt (overlay · value) (DocumentStep.ofName name)) below

end Document

end SpeechDispatch
