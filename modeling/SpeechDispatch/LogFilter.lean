/-!
# Log filters

A filter says up to which level the events of a part of the program are logged.  It is a list of directives, each for
the parts whose names start alike; the one with the longest start counts.
-/

namespace SpeechDispatch

/-- How fine a level is: nothing is logged at 0, errors from 1 on, and everything at 5. -/
abbrev LogRank := Nat

/-- The rank that a word or a digit names. -/
def logRank? (word : String) : Option LogRank :=
  ([("off", 0), ("error", 1), ("warn", 2), ("info", 3), ("debug", 4), ("trace", 5),
    ("0", 0), ("1", 1), ("2", 2), ("3", 3), ("4", 4), ("5", 5)]).lookup word.toLower

/-- Up to which rank parts are logged whose names start so. -/
structure LogDirective where
  target : String
  rank : LogRank
  deriving DecidableEq

/-- The directives, the last one first; those that concern no events by themselves are left out. -/
abbrev LogFilter := List LogDirective

namespace LogFilter

/-- Logs everything up to a rank. -/
def upTo (rank : LogRank) : LogFilter := [⟨"", rank⟩]

/-- Whether a directive can start with a character. -/
def startsDirective (c : Char) : Bool := c.isAlphanum || 0x7f < c.toNat || c == '-' || c == ':' || c == '_' || c == '['

/-- Reads a directive: a level, a target, or both with a sign of equality between.  What concerns spans of time is no
directive for events. -/
def directive? (text : String) : Option (Option LogDirective) :=
  let chars := text.toList
  if !(chars.head?.any startsDirective) then none
  else if chars.contains '[' then some none
  else
    let front := String.ofList (chars.takeWhile (· ≠ '='))
    match chars.dropWhile (· ≠ '=') with
    | [] =>
      match logRank? front with
      | some rank => some (some ⟨"", rank⟩)
      | none => some (some ⟨front, 5⟩)
    | [_] => some (some ⟨front, 5⟩)
    | _ :: level => (logRank? (String.ofList level)).map fun rank => some ⟨front, rank⟩

/-- The parts of a text between commas that are not empty. -/
def parts (text : String) : List String := (text.splitOn ",").filter (· ≠ "")

/-- Reads a filter; one without any directives lets errors pass. -/
def ofText? (text : String) : Option LogFilter :=
  match (parts text).mapM directive? with
  | none => none
  | some [] => some (upTo 1)
  | some directives => some (directives.filterMap id).reverse

/-- The directive with the longest start of a name; of two with the same the first one counts. -/
def strongest (target : String) (filter : LogFilter) : Option LogDirective :=
  (filter.filter fun d => target.startsWith d.target).foldl (fun best d =>
    match best with
    | some b => if b.target.length < d.target.length then some d else some b
    | none => some d) none

/-- Whether events of a part are logged at a rank. -/
def allows (filter : LogFilter) (target : String) (rank : LogRank) : Bool :=
  match strongest target filter with
  | some d => rank ≤ d.rank
  | none => false

end LogFilter

end SpeechDispatch
