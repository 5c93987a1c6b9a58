/-
The upload of a report in two steps: the service is asked for a place to store the report, with the
credential and all that is known of the run in the query; then the report goes to that place,
without the credential.
-/
import CoverageRun.Coverage.Tracefile
import CoverageRun.Origin
import CoverageRun.Text.Base64
import CoverageRun.Upload.Credential
import CoverageRun.Upload.Message
import CoverageRun.Upload.Settings

namespace CoverageRun.Upload

/-! ## The upload URL -/

/-- The version of the program, as it tells the service. -/
def version : String := "0.3.1"

/-- What the service is told of a run. -/
def parameters (s : Settings) (c : Origin) : List (String × String) :=
  [("package", "covflow-" ++ version), ("commit", c.commit), ("build", c.runId),
      ("service", c.service)] ++
    c.branch.toList.map (("branch", ·)) ++
    c.repository.toList.map (("slug", ·)) ++
    c.pullRequest.toList.map (fun n => ("pr", toString n.toNat)) ++
    (if s.flags = [] then [] else [("flags", Text.joinText "," s.flags)]) ++
    s.name.toList.map (("name", ·))

/-- Where uploads are asked for, below the base URL without the slashes it ends with. -/
def endpoint (s : Settings) : String :=
  String.ofList ((s.baseUrl.toList.reverse.dropWhile (· == '/')).reverse) ++ "/upload/v4"

/-- The URL that an upload is asked for at. -/
def uploadUrl (s : Settings) (c : Origin) : Except Failure Url :=
  match Url.parse (endpoint s) with
  | .ok u => .ok (u.withPairs (parameters s c))
  | .error e => .error (.config s!"invalid upload URL {endpoint s}: {e.message}")

/-! ## Faults -/

/-- What can go wrong with an upload. -/
inductive Fault where
  /-- The token cannot stand in a header. -/
  | badToken
  | badScheme (url : Url)
  | unreachable (url : Url)
  | refused (status : Nat) (body : String)
  | unexpected (body : String)
  | badStorageUrl (cause : Url.Fault)
  | notStored (status : Nat)
  deriving Repr

/-- The beginning of a text, no longer than two hundred characters. -/
def beginning (s : String) : String := String.ofList (s.toList.take 200)

/-- The wording of a fault. -/
def Fault.message : Fault → String
  | .badToken => "builder error"
  | .badScheme url => s!"builder error for url ({url.text})"
  | .unreachable url => s!"error sending request for url ({url.text})"
  | .refused status body =>
    s!"upload request rejected with {statusText status}: {beginning body}"
  | .unexpected body => s!"unexpected upload response: {beginning body}"
  | .badStorageUrl cause => s!"invalid storage URL in response: {cause.message}"
  | .notStored status => s!"report upload rejected with {statusText status}"

/-! ## Requests and answers -/

/-- Whether a text can be the value of a header: it has no control characters but tabs. -/
def isHeaderValue (s : String) : Bool :=
  s.toList.all fun c => (' ' ≤ c && c != '\x7f') || c == '\t'

def userAgent : String × String := ("user-agent", "covflow/" ++ version)

/-- The headers for the user of a URL: a user goes into a header and not into what is asked for. -/
def userHeaders (url : Url) : List (String × String) :=
  url.user?.toList.map fun (name, password) =>
    let login := name ++ ":" ++ password.getD ""
    ("authorization", "Basic " ++ String.ofList (Text.base64 (Text.octets login)))

/-- The request for a place to store a report. -/
def askRequest (url : Url) (credential : Credential) : Request :=
  ⟨.post, url.withoutUser, userHeaders url ++
    [("authorization", "token " ++ credential.expose), ("accept", "text/plain"), userAgent], ""⟩

/-- The request that stores a report. -/
def storeRequest (url : Url) (report : Coverage.Report) : Request :=
  ⟨.put, url.withoutUser, userHeaders url ++
    [("content-type", "text/plain"), ("accept", "*/*"), userAgent], report.render⟩

/-- The places an answer names: where the report can be seen, and where it is to be stored. They
are its first two lines that are not blank. -/
def readAnswer (body : String) : Except Fault (String × Url) :=
  let lines := ((Text.lines body.toList).map Text.trim).filter (· ≠ [])
  match lines with
  | seen :: stored :: _ =>
    match Url.parse (String.ofList stored) with
    | .ok url => .ok (String.ofList seen, url)
    | .error cause => .error (.badStorageUrl cause)
  | _ => .error (.unexpected body)

/-! ## The protocol -/

/-- Work with a transport that may fail. -/
abbrev Exchange (τ : Type) := ExceptT Fault (StateM τ)

variable {τ : Type}

/-- Sends a request, if its scheme is one that can be sent. -/
def send (t : Transport τ) (r : Request) : Exchange τ Response := do
  if r.url.scheme ≠ "http" ∧ r.url.scheme ≠ "https" then throw (.badScheme r.url)
  let (response, state) := t.send r (← get)
  set state
  match response with
  | some response => return response
  | none => throw (.unreachable r.url)

/-- Uploads a report: what the service says of where it can be seen, and its size. -/
def exchange (t : Transport τ) (url : Url) (credential : Credential) (report : Coverage.Report) :
    Exchange τ Receipt := do
  if isHeaderValue credential.expose = false then throw .badToken
  let answer ← send t (askRequest url credential)
  if answer.isSuccess = false then throw (.refused answer.status answer.body)
  let (seen, storage) ← (readAnswer answer.body : Except Fault _)
  let stored ← send t (storeRequest storage report)
  if stored.isSuccess = false then throw (.notStored stored.status)
  return ⟨some seen, UInt64.ofNat report.octets.length⟩

/-- Publishes a report: what came of it, and the state of the transport afterwards. -/
def publish (t : Transport τ) (s : Settings) (report : Coverage.Report) (credential : Credential)
    (origin : Origin) (state : τ) : Except Failure Receipt × τ :=
  match uploadUrl s origin with
  | .error f => (.error f, state)
  | .ok url =>
    let (outcome, state) := StateT.run (ExceptT.run (exchange t url credential report)) state
    (outcome.mapError fun f => .publish f.message, state)

end CoverageRun.Upload
