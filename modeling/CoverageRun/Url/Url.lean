/-
URLs: reading, writing, and adding to the query.
-/
import CoverageRun.Url.Host

namespace CoverageRun.Url

/-! ## Parts -/

/-- Who is asked for at which host. -/
structure Authority where
  user : String
  password : String
  host : Host
  port : Option Nat
  deriving DecidableEq, Repr, Inhabited

/-- The path of a URL: names behind slashes, or plain text where there is no hierarchy. -/
inductive Route where
  | names (segments : List String)
  | plain (text : String)
  deriving DecidableEq, Repr, Inhabited

/-- The text of a path. -/
def Route.text : Route → String
  | .names segments => String.join (segments.map ("/" ++ ·))
  | .plain text => text

end CoverageRun.Url

namespace CoverageRun

/-- A URL, its parts as they are written. -/
structure Url where
  scheme : String
  authority : Option Url.Authority
  route : Url.Route
  query : Option String
  fragment : Option String
  deriving DecidableEq, Repr, Inhabited

namespace Url

open Text

/-! ## Schemes -/

/-- The port that a scheme uses when none is given. -/
def defaultPort? (scheme : String) : Option Nat :=
  match scheme with
  | "http" | "ws" => some 80
  | "https" | "wss" => some 443
  | "ftp" => some 21
  | _ => none

/-- Schemes with hosts and hierarchical paths by definition. -/
inductive Kind where
  | network
  | file
  | other
  deriving DecidableEq, Repr

/-- The kind of a scheme. -/
def Kind.ofScheme (scheme : String) : Kind :=
  if (defaultPort? scheme).isSome then .network else if scheme = "file" then .file else .other

/-- Whether backslashes count as slashes. -/
def Kind.isSpecial (k : Kind) : Bool := k != .other

/-- Whether a character is a slash. -/
def Kind.isSlash (k : Kind) (c : Char) : Bool := c == '/' || (k.isSpecial && c == '\\')

/-- Whether a character ends an authority. -/
def Kind.endsAuthority (k : Kind) (c : Char) : Bool := k.isSlash c || c == '?' || c == '#'

def isLetter (c : Char) : Bool := ('a' ≤ c && c ≤ 'z') || ('A' ≤ c && c ≤ 'Z')

def isSchemeChar (c : Char) : Bool :=
  isLetter c || Numeral.isDigit c || c == '+' || c == '-' || c == '.'

/-- The scheme a URL begins with, in small letters, and the rest after the colon. -/
def takeScheme? (cs : List Char) : Option (String × List Char) :=
  match cut ':' cs with
  | some (c :: name, rest) =>
    if isLetter c && name.all isSchemeChar then
      some (String.ofList ((c :: name).map Char.toLower), rest)
    else none
  | _ => none

/-! ## Authorities -/

/-- Splits a text at its last `@`. -/
def cutLastAt? (cs : List Char) : Option (List Char × List Char) :=
  match cut '@' cs.reverse with
  | some (after, before) => some (before.reverse, after.reverse)
  | none => none

/-- The characters of a host: up to a colon that stands outside brackets. -/
def takeHost (inside : Bool) : List Char → List Char × List Char
  | [] => ([], [])
  | c :: r =>
    if c = ':' ∧ inside = false then ([], c :: r)
    else
      let inside := if c = '[' then true else if c = ']' then false else inside
      let (host, rest) := takeHost inside r
      (c :: host, rest)

/-- Reads a port after its colon, up to a backslash: it, and the rest. The port a scheme uses anyway
is not kept. -/
def readPort (scheme : String) (cs : List Char) : Except Fault (Option Nat × List Char) :=
  let digits := cs.takeWhile Numeral.isDigit
  let rest := cs.drop digits.length
  if rest.head?.any (· != '\\') ∨ 65535 < Numeral.value digits then .error .badPort
  else if digits = [] ∨ some (Numeral.value digits) = defaultPort? scheme then .ok (none, rest)
  else .ok (some (Numeral.value digits), rest)

/-- Reads an authority, which `rest` follows: it, and what its port leaves to the path. -/
def readAuthority (scheme : String) (cs rest : List Char) :
    Except Fault (Authority × List Char) := do
  let special := (Kind.ofScheme scheme).isSpecial
  let (user, address) :=
    match cutLastAt? cs with
    | some (user, address) => (user, address)
    | none => ([], cs)
  if cs.head? = some '@' ∧ user = [] ∧ address = [] ∧ rest ≠ [] then throw .noHost
  let (name, password) := (cut ':' user).getD (user, [])
  let (hostText, portText) := takeHost false address
  if special ∧ hostText = [] then throw .noHost
  let host ← if special then readHost hostText else readPlainHost hostText
  let isNameless := host == .name ""
  if isNameless ∧ portText ≠ [] then throw .noHost
  let (port, left) ← readPort scheme portText.tail
  if isNameless ∧ (name ≠ [] ∨ password ≠ []) then throw .noHost
  let text (cs : List Char) := String.ofList (encode userSet cs)
  return (⟨text name, text password, host, port⟩, left)

/-! ## Paths -/

/-- A segment that stands for the directory itself. -/
def isHere (segment : String) : Bool := [".", "%2e", "%2E"].contains segment

/-- A segment that stands for the directory above. -/
def isUp (segment : String) : Bool :=
  ["..", "%2e%2e", "%2e%2E", "%2E%2e", "%2E%2E", "%2e.", "%2E.", ".%2e", ".%2E"].contains segment

/-- Whether a segment begins as drives are named: a letter and a colon or bar, and no more than a
backslash behind them. -/
def isDriveLike (segment : String) : Bool :=
  match segment.toList with
  | c :: d :: r => isLetter c && (d == ':' || d == '|') && r.head?.all (· == '\\')
  | _ => false

/-- The segments without the last one. There is no way up from a drive. -/
def dropSegment (segments : List String) : List String :=
  if segments.getLast?.any isDriveLike then segments else segments.dropLast

/-- The segments with one more; steps to the directory itself and above are taken. `last` tells that
no slash follows. -/
def addSegment (segments : List String) (segment : String) (last : Bool) : List String :=
  let close (segments : List String) := if last then segments ++ [""] else segments
  if isUp segment then close (dropSegment segments)
  else if isHere segment then close segments
  else segments ++ [segment]

/-- Adds segments in order. -/
def addSegments : List String → List String → List String
  | segments, [] => segments
  | segments, [s] => addSegment segments s true
  | segments, s :: t :: r => addSegments (addSegment segments s false) (t :: r)

/-- Splits a path at its slashes. -/
def splitPath (k : Kind) (cs : List Char) : List (List Char) :=
  split '/' (cs.map fun c => if k.isSlash c then '/' else c)

/-- A segment as it is written. -/
def segmentText (cs : List Char) : String := String.ofList (encode pathSet cs)

/-- Reads a hierarchical path after its first slash. -/
def readPath (k : Kind) (cs : List Char) : List String :=
  addSegments [] ((splitPath k cs).map segmentText)

/-! ## Paths of files -/

/-- Characters that do not count in a URL. -/
def isSkipped (c : Char) : Bool := ['\t', '\n', '\r'].contains c

/-- The characters that count. -/
def visible (cs : List Char) : List Char := cs.filter fun c => !isSkipped c

/-- What is behind the first `count` characters that count. -/
def dropVisible : Nat → List Char → List Char
  | 0, cs => cs
  | _ + 1, [] => []
  | count + 1, c :: r => if isSkipped c then dropVisible (count + 1) r else dropVisible count r

/-- The drive that a piece of a path names. -/
def drive? (piece : List Char) : Option String :=
  match visible piece with
  | [c, d] => if isLetter c && (d == ':' || d == '|') then some (String.ofList [c, ':']) else none
  | _ => none

/-- The drive that a piece of a path begins with, where a character that does not count parts it
from the rest. -/
def partedDrive? (piece : List Char) : Option (String × List Char) :=
  match piece.dropWhile isSkipped with
  | [] => none
  | c :: r =>
    match r.dropWhile isSkipped with
    | ':' :: d :: r =>
      if isLetter c && isSkipped d && visible r != [] then
        some (String.ofList [c, ':'], visible r)
      else none
    | _ => none

/-- The path of a file as far as it is read, and whether a drive stands in it where a host would
have to be known. -/
structure FileTrail where
  segments : List String
  hasDrive : Bool
  deriving DecidableEq, Repr

/-- The path of a file with one more piece. A piece directly behind the root may name a drive. -/
def FileTrail.add (t : FileTrail) (piece : List Char) (last : Bool) : FileTrail :=
  match t.segments, drive? piece, partedDrive? piece with
  | [], some drive, _ => ⟨[drive], true⟩
  | [], none, some (drive, rest) => { t with segments := [drive, segmentText rest] }
  | segments, _, _ =>
    { t with segments := addSegment segments (segmentText (visible piece)) last }

/-- Adds pieces in order. -/
def FileTrail.addAll : FileTrail → List (List Char) → FileTrail
  | t, [] => t
  | t, [piece] => t.add piece true
  | t, piece :: next :: rest => (t.add piece false).addAll (next :: rest)

/-- Reads the path of a file after its first slash. Empty segments at its head do not count.
`hosted` tells that a host or a drive was told before it. -/
def readFilePath (hosted : Bool) (cs : List Char) : FileTrail :=
  let start : FileTrail := ⟨if hosted then [] else [""], false⟩
  let t := start.addAll (splitPath .file cs)
  { t with
    segments := if t.segments.all (· == "") then [""] else t.segments.dropWhile (· == "") }

/-! ## Reading -/

/-- A text without a slash at its head. -/
def dropSlash (k : Kind) : List Char → List Char
  | c :: r => if k.isSlash c then r else c :: r
  | [] => []

/-- Splits what follows the scheme into what is before the query and fragment, and these. -/
def cutTail (special : Bool) (cs : List Char) : List Char × Option String × Option String :=
  let (cs, fragment) :=
    match cut '#' cs with
    | some (a, b) => (a, some (String.ofList (encode fragmentSet b)))
    | none => (cs, none)
  match cut '?' cs with
  | some (a, b) => (a, some (String.ofList (encode (querySet special) b)), fragment)
  | none => (cs, none, fragment)

/-- Reads a URL with an authority, from after the two slashes. -/
def readNetwork (scheme : String) (cs whole : List Char) (query fragment : Option String) :
    Except Fault Url := do
  let k := Kind.ofScheme scheme
  let authority := cs.takeWhile fun c => !k.endsAuthority c
  let path := cs.drop authority.length
  let (authority, left) ← readAuthority scheme authority (whole.drop authority.length)
  let path := left ++ path
  let route : Route :=
    if path = [] ∧ k.isSpecial = false then .names [] else .names (readPath k (dropSlash k path))
  return ⟨scheme, some authority, route, query, fragment⟩

/-- The URL of a file. A drive in its path leaves no room for a host. -/
def fileUrl (host : Host) (t : FileTrail) (query fragment : Option String) : Url :=
  let host := if t.hasDrive then .name "" else host
  ⟨"file", some ⟨"", "", host, none⟩, .names t.segments, query, fragment⟩

/-- Reads the URL of a file. -/
def readFile (cs : List Char) (query fragment : Option String) : Except Fault Url := do
  let k := Kind.file
  let body := visible cs
  let trail (hosted : Bool) (path : List Char) : FileTrail :=
    readFilePath hosted (dropVisible (body.length - path.length) cs)
  match body with
  | c :: d :: r =>
    if k.isSlash c && k.isSlash d then
      let hostText := r.takeWhile fun c => !k.isSlash c
      let path := dropSlash k (r.drop hostText.length)
      if (drive? hostText).isSome then return fileUrl (.name "") (trail true r) query fragment
      else if hostText = [] then return fileUrl (.name "") (trail false path) query fragment
      else
        let host ← readHost hostText
        if host = .name "localhost" then
          return fileUrl (.name "") (trail false path) query fragment
        else return fileUrl host (trail true path) query fragment
    else return fileUrl (.name "") (trail true (dropSlash k body)) query fragment
  | _ => return fileUrl (.name "") (trail true (dropSlash k body)) query fragment

/-- Reads a URL without an authority. -/
def readAnarchic (scheme : String) (cs : List Char) (query fragment : Option String) : Url :=
  let route : Route :=
    match cs with
    | '/' :: r => .names (readPath .other r)
    | cs => .plain (String.ofList (encode controlSet cs))
  ⟨scheme, none, route, query, fragment⟩

/-- Reads a URL. Control characters and blanks around it and all tabs and line ends in it do not
count. -/
def parse (s : String) : Except Fault Url := do
  let isTrimmed (c : Char) : Bool := c ≤ ' '
  let cs := ((s.toList.dropWhile isTrimmed).reverse.dropWhile isTrimmed).reverse
  match takeScheme? (visible cs) with
  | none => throw .relative
  | some (scheme, rest) =>
    let k := Kind.ofScheme scheme
    let (body, query, fragment) := cutTail k.isSpecial rest
    match k with
    | .network =>
      let slashes := (body.takeWhile k.isSlash).length
      readNetwork scheme (body.drop slashes) (rest.drop slashes) query fragment
    | .file =>
      let whole := dropVisible ((visible cs).length - rest.length) cs
      readFile (whole.takeWhile fun c => c != '?' && c != '#') query fragment
    | .other =>
      match body with
      | '/' :: '/' :: r => readNetwork scheme r (rest.drop 2) query fragment
      | body => return readAnarchic scheme body query fragment

/-! ## Writing -/

/-- The text of an authority. -/
def Authority.text (a : Authority) : String :=
  let password := if a.password = "" then "" else ":" ++ a.password
  let user := if a.user = "" ∧ a.password = "" then "" else a.user ++ password ++ "@"
  let port :=
    match a.port with
    | some n => ":" ++ toString n
    | none => ""
  user ++ a.host.text ++ port

/-- The path of a URL. -/
def path (u : Url) : String := u.route.text

/-- The text of a URL. A path that would look like an authority has a dot put before it. -/
def text (u : Url) : String :=
  let front :=
    match u.authority with
    | some a => "//" ++ a.text
    | none => if startsWith ['/', '/'] u.path.toList then "/." else ""
  let tail (mark : String) : Option String → String
    | some s => mark ++ s
    | none => ""
  u.scheme ++ ":" ++ front ++ u.path ++ tail "?" u.query ++ tail "#" u.fragment

/-! ## Queries -/

/-- The URL with names and values added to its query. -/
def withPairs (u : Url) (pairs : List (String × String)) : Url :=
  if pairs = [] then u
  else
    let form := String.ofList (formPairs pairs)
    let query :=
      match u.query with
      | none => form
      | some q => if q = "" then form else q ++ "&" ++ form
    { u with query := some query }

/-- The names and values in the query of a URL. -/
def pairs (u : Url) : List (String × String) := readForm ((u.query.getD "").toList)

/-! ## Users -/

/-- The text that is written with escapes, if it is one. -/
def decodeText? (s : String) : Option String := ofOctets? (decode (octets s))

/-- The user name and the password of a URL. There is none if the name is no text, and a password that
is no text does not count. -/
def user? (u : Url) : Option (String × Option String) := do
  let a ← u.authority
  let name ← decodeText? a.user
  let password := if a.password = "" then none else decodeText? a.password
  if name = "" ∧ password = none then none else some (name, password)

/-- The URL without user name and password, as far as it has a user. -/
def withoutUser (u : Url) : Url :=
  if u.user?.isSome then
    { u with authority := u.authority.map fun a => { a with user := "", password := "" } }
  else u

end Url

end CoverageRun
