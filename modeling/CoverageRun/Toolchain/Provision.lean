/-
Provisioning: what is missing of a toolchain is installed, and nothing else. A listing is asked for
before each kind of installation; the first command that does not pass ends it.
-/
import CoverageRun.Host
import CoverageRun.Toolchain.Listing
import CoverageRun.Toolchain.Needs

namespace CoverageRun.Toolchain

/-! ## Reports -/

/-- What had to be installed. -/
structure Changes where
  toolchain : Bool
  components : List String
  tool : Bool
  deriving DecidableEq, Repr, Inhabited

namespace Changes

/-- Whether anything had to be installed. -/
def any (c : Changes) : Bool := c.toolchain || !c.components.isEmpty || c.tool

def toJson (c : Changes) : Json.Value := .object [
  ("installed_toolchain", .bool c.toolchain),
  ("installed_components", .texts c.components),
  ("installed_tool", .bool c.tool)]

end Changes

/-! ## Commands -/

def listChannels : String × List String :=
  ("rustup_toolchain_list", ["rustup", "toolchain", "list"])

def installChannel (channel : String) : String × List String :=
  ("rustup_toolchain_install",
    ["rustup", "toolchain", "install", channel, "--profile", "minimal"])

def listComponents (channel : String) : String × List String :=
  ("rustup_component_list",
    ["rustup", "component", "list", "--installed", "--toolchain", channel])

def addComponent (channel component : String) : String × List String :=
  ("rustup_component_add", ["rustup", "component", "add", component, "--toolchain", channel])

def askVersion (tool : String) : String × List String := ("tool_version", [tool, "--version"])

def installTool (tool : String) : String × List String :=
  ("cargo_install", ["cargo", "install", "--locked", tool])

/-! ## Provisioning -/

/-- Where commands run and how long each may take. -/
structure Site where
  directory : Path
  timeout : UInt64
  deriving Repr

/-- A command at a site. -/
def Site.command (s : Site) (c : String × List String) : Command :=
  (Command.make c.1 c.2 s.timeout).inDirectory s.directory

variable {σ : Type}

/-- Issues a command that must pass, for what it writes to its output. -/
def query (h : Host σ) (s : Site) (c : String × List String) : Action σ String := do
  let command := s.command c
  let out ← Action.issue h command
  if out.passed then return out.stdout
  else
    Action.fail (.provisioning
      s!"`{command.line}` exited with code {Numeral.writeInt out.exitCode}: {out.stderrTail 5}")

/-- Issues a command that must pass; `complaint` says what is not to be had if it does not. -/
def install (h : Host σ) (s : Site) (c : String × List String) (complaint : String) :
    Action σ Unit := do
  let out ← Action.issue h (s.command c)
  if out.passed then return ()
  else Action.fail (.provisioning s!"{complaint}: {out.stderrTail 5}")

/-- Whether a tool tells its version. One that cannot be started is not there. -/
def hasTool (h : Host σ) (s : Site) (tool : String) : Action σ Bool :=
  tryCatch
    (do return (← Action.issue h (s.command (askVersion tool))).passed)
    fun halt =>
      match halt with
      | .failure (.io _) => return false
      | halt => throw halt

/-- Adds the components that no entry stands for, and names those it added. -/
def addMissing (h : Host σ) (s : Site) (channel : String) (entries : List String) :
    List String → Action σ (List String)
  | [] => return []
  | c :: cs => do
    if listsComponent entries c then addMissing h s channel entries cs
    else
      install h s (addComponent channel c) s!"component {c} is unavailable for channel {channel}"
      return c :: (← addMissing h s channel entries cs)

/-- Installs what is missing of a toolchain. -/
def provision (h : Host σ) (s : Site) (spec : Needs) : Action σ Changes := do
  Action.ofExcept (fun f => .config f.message) spec.validate
  let listed := lists (← query h s listChannels) spec.channel
  if !listed then
    install h s (installChannel spec.channel) s!"toolchain {spec.channel} is not available"
  let entries := components (← query h s (listComponents spec.channel))
  let added ← addMissing h s spec.channel entries spec.components.keys
  let present ← hasTool h s spec.tool
  if !present then install h s (installTool spec.tool) s!"could not install {spec.tool}"
  return ⟨!listed, added, !present⟩

end CoverageRun.Toolchain
