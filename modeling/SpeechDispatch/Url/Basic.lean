import SpeechDispatch.Url.Host

/-!
# URLs

The parts of an absolute URL.  `Url.parse?` reads them as browsers do: controls and blanks around the URL and tabs and
line ends within it count for nothing, a scheme of the web needs no slashes before its host, and dots in its path are
resolved.
-/

namespace SpeechDispatch

structure Url where
  scheme : String
  host : Option Url.Host := none
  port : Option Nat := none
  path : String := ""
  query : Option String := none
  deriving DecidableEq

namespace Url

/-- The schemes of the web. -/
def isSpecialScheme (scheme : String) : Bool := ["http", "https", "ws", "wss", "ftp"].contains scheme

/-- The port that goes without saying. -/
def defaultPort (scheme : String) : Option Nat :=
  ([("http", 80), ("https", 443), ("ws", 80), ("wss", 443), ("ftp", 21)]).lookup scheme

/-- A URL without controls and blanks around it, and without tabs and line ends. -/
def cleaned (text : String) : List Char :=
  let isEdge (c : Char) : Bool := c.toNat ≤ 0x20
  let trimmed := ((text.toList.dropWhile isEdge).reverse.dropWhile isEdge).reverse
  trimmed.filter fun c => c != '\t' && c != '\n' && c != '\r'

/-- Cuts a scheme off, in lower case, with its colon. -/
def splitScheme (input : List Char) : Option (String × List Char) :=
  let isSchemeChar (c : Char) : Bool := c.isAlphanum || c == '+' || c == '-' || c == '.'
  match input.dropWhile isSchemeChar with
  | ':' :: rest =>
    match input.takeWhile isSchemeChar with
    | c :: scheme => if c.isAlpha then some (String.ofList ((c :: scheme).map Char.toLower), rest) else none
    | [] => none
  | _ => none

/-- Cuts a text at the first of some characters, which stays with the second part. -/
def cutBefore (isMark : Char → Bool) (input : List Char) : List Char × List Char :=
  (input.takeWhile (!isMark ·), input.dropWhile (!isMark ·))

/-- The parts before and after the last `@`. -/
def cutUserInfo (authority : List Char) : Option (List Char × List Char) :=
  let back := authority.reverse.takeWhile (· ≠ '@')
  match authority.reverse.dropWhile (· ≠ '@') with
  | _ :: front => some (front.reverse, back.reverse)
  | [] => none

/-- Cuts host and port apart at the first colon outside brackets. -/
def cutPort (inBrackets : Bool) : List Char → List Char × Option (List Char)
  | [] => ([], none)
  | c :: rest =>
    if c = ':' && !inBrackets then ([], some rest)
    else
      let (host, port) := cutPort (if c = '[' then true else if c = ']' then false else inBrackets) rest
      (c :: host, port)

/-- A port: digits up to the end or a backslash, or nothing for the default. -/
def portOf? (text : List Char) : Option (Option Nat) :=
  match (cutBefore (· == '\\') text).1 with
  | [] => some none
  | digits => (Net.port? digits).map some

/-- Host and port of an authority.  A host may be missing only without user, port and a scheme of the web, and not
after a lone `@` if the URL goes on (`followed`). -/
def authority? (special followed : Bool) (authority : List Char) : Option (Option Host × Option Nat) := do
  let user := cutUserInfo authority
  let hostAndPort := (user.map (·.2)).getD authority
  let (hostText, portText) := cutPort false hostAndPort
  if hostText.isEmpty then
    let userIsLeftOut := match user with
      | none => true
      | some (name, _) => (name.isEmpty && !followed) || name == [':']
    if special || portText.isSome || !userIsLeftOut then none else some (none, none)
  else
    let host ← host? special hostText
    let port ← match portText with
      | none => some none
      | some text => portOf? text
    some (some host, port)

/-! ### Paths -/

/-- Whether a segment stands for its own place. -/
def isSingleDot (segment : List Char) : Bool := ["." , "%2e", "%2E"].contains (String.ofList segment)

/-- Whether a segment stands for the place above. -/
def isDoubleDot (segment : List Char) : Bool :=
  ["..", ".%2e", ".%2E", "%2e.", "%2E.", "%2e%2e", "%2e%2E", "%2E%2e", "%2E%2E"].contains (String.ofList segment)

/-- The segments that a path leads through, with dots resolved; `seen` holds those passed, last first. -/
def resolveDots (seen : List (List Char)) : List (List Char) → List (List Char)
  | [] => seen.reverse
  | [last] =>
    if isDoubleDot last then (([] : List Char) :: seen.tail).reverse
    else if isSingleDot last then (([] : List Char) :: seen).reverse
    else (last :: seen).reverse
  | segment :: rest =>
    if isDoubleDot segment then resolveDots seen.tail rest
    else if isSingleDot segment then resolveDots seen rest
    else resolveDots (segment :: seen) rest

/-- A path of a hierarchy, from after its first slash on. -/
def hierarchicalPath (special : Bool) (text : List Char) : String :=
  let slashed := if special then text.map fun c => if c = '\\' then '/' else c else text
  let segments := resolveDots [] (Net.splitAt '/' slashed)
  String.ofList (segments.flatMap fun segment => '/' :: percentEncode inPathSet segment)

/-- The path after an authority, which the schemes of the web always have. -/
def pathAfterAuthority (special : Bool) (text : List Char) : String :=
  match text with
  | [] => if special then "/" else ""
  | c :: rest => if c = '/' || (special && c = '\\') then hierarchicalPath special rest else hierarchicalPath special text

/-- The query of a URL from its question mark on, up to the fragment. -/
def queryOf (special : Bool) (text : List Char) : Option String :=
  match text with
  | '?' :: rest =>
    let query := (cutBefore (· == '#') rest).1
    some (String.ofList (percentEncode (if special then inSpecialQuerySet else inQuerySet) query))
  | _ => none

/-- The URL of a scheme with an authority, from after the slashes on. -/
def withAuthority? (scheme : String) (input : List Char) : Option Url := do
  let special := isSpecialScheme scheme
  let isEnd (c : Char) : Bool := c == '/' || c == '?' || c == '#' || (special && c == '\\')
  let (authority, rest) := cutBefore isEnd input
  let (host, port) ← authority? special (!rest.isEmpty) authority
  let (path, rest) := cutBefore (fun c => c == '?' || c == '#') rest
  let port := if port = defaultPort scheme then none else port
  return { scheme, host, port, path := pathAfterAuthority special path, query := queryOf special rest }

/-- Whether a text is the letter of a drive. -/
def isDrive : List Char → Bool
  | [letter, mark] => letter.isAlpha && (mark == ':' || mark == '|')
  | _ => false

/-- The URL of a local file, from after the scheme on. -/
def fileUrl? (input : List Char) : Option Url := do
  let isSlash (c : Char) : Bool := c == '/' || c == '\\'
  let (text, rest) := cutBefore (fun c => c == '?' || c == '#') input
  let query := queryOf true rest
  match text with
  | a :: b :: after =>
    if isSlash a && isSlash b then
      let (host, path) := cutBefore isSlash after
      if host.isEmpty || isDrive host then
        return { scheme := "file", path := pathAfterAuthority true (if isDrive host then '/' :: after else path), query }
      else return { scheme := "file", host := some (← host? true host), path := pathAfterAuthority true path, query }
    else return { scheme := "file", path := pathAfterAuthority true text, query }
  | text => return { scheme := "file", path := pathAfterAuthority true text, query }

/-- Reads an absolute URL. -/
def parse? (text : String) : Option Url := do
  let (scheme, rest) ← splitScheme (cleaned text)
  if scheme = "file" then fileUrl? rest
  else if isSpecialScheme scheme then
    withAuthority? scheme (rest.dropWhile fun c => c == '/' || c == '\\')
  else
    match rest with
    | '/' :: '/' :: rest => withAuthority? scheme rest
    | rest =>
      let (path, rest) := cutBefore (fun c => c == '?' || c == '#') rest
      let path := match path with
        | '/' :: path => hierarchicalPath false path
        | path => String.ofList (percentEncode (fun _ => false) path)
      return { scheme, path, query := queryOf false rest }

/-- What an HTTP client asks a host for. -/
def requestTarget (url : Url) : String :=
  match url.query with
  | none => url.path
  | some query => url.path ++ "?" ++ query

end Url

end SpeechDispatch
