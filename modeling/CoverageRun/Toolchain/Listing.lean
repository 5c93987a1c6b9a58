/-
Listings of what is installed. An entry is a name, or a name with the target it was built for behind
a hyphen.
-/
import CoverageRun.Text.Split

namespace CoverageRun.Toolchain

/-- What the names of target architectures begin with. -/
def architectures : List String :=
  ["x86_64", "i686", "i586", "aarch64", "arm", "thumb", "riscv", "wasm32", "powerpc", "s390x",
    "mips", "loongarch64", "sparc"]

/-- A text that begins with an architecture and has a hyphen. -/
def isTarget (s : List Char) : Bool :=
  s.contains '-' && architectures.any fun a => Text.startsWith a.toList s

/-- Whether a listed entry stands for a name: it is the name, or the name, a hyphen and a target. -/
def names (listed name : String) : Bool :=
  listed == name ||
    match Text.after? name.toList listed.toList with
    | some ('-' :: rest) => isTarget rest
    | _ => false

/-- The channels a listing shows: the first word of each line. -/
def channels (listing : String) : List String :=
  (Text.lines listing.toList).filterMap fun line => (Text.firstWord? line).map String.ofList

/-- Whether a listing shows a channel. -/
def lists (listing channel : String) : Bool :=
  (channels listing).any fun entry => names entry channel

/-- The components a listing shows: its lines without the blanks around them. -/
def components (listing : String) : List String :=
  ((Text.lines listing.toList).map Text.trim).filter (· ≠ []) |>.map String.ofList

/-- The name of a component without the ending it has before it becomes stable. -/
def stableName (component : String) : String :=
  (Text.beforeText? "-preview" component).getD component

/-- Whether one of the entries stands for a component under either name. -/
def listsComponent (entries : List String) (component : String) : Bool :=
  entries.any fun entry => names entry component || names entry (stableName component)

end CoverageRun.Toolchain
