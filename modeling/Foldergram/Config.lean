import Foldergram.Folding
import Foldergram.Notice
import Foldergram.Palette
import Foldergram.Toml.Document

/-! Settings from a TOML document. Keys that are not settings are passed over. -/

namespace Foldergram

structure Config where
  /-- Patterns of the files to leave out. -/
  exclude : Option (List String) := none
  palette : Option (List String) := none
  /-- Folders above this depth are open after a load. -/
  openDepth : Option Nat := none
  deriving DecidableEq, Repr

inductive ConfigFault where
  | notText
  | malformed
  deriving DecidableEq, Repr

namespace Config

def string? : Toml.Value → Option String
  | .string s => some s
  | _ => none

def strings? : Toml.Value → Option (List String)
  | .array items => items.mapM string?
  | _ => none

def natural? : Toml.Value → Option Nat
  | .integer n => if 0 ≤ n then some n.toNat else none
  | _ => none

/-- A setting that is absent, or one of the right type. -/
def setting? {α : Type} (read : Toml.Value → Option α) (entries : Toml.Entries) (key : String) :
    Option (Option α) :=
  match entries.lookup key with
  | none => some none
  | some value => (read value).map some

def ofText? (text : String) : Option Config := do
  let entries ← Toml.parse? text
  return {
    exclude := ← setting? strings? entries "exclude"
    palette := ← setting? strings? entries "palette"
    openDepth := ← setting? natural? entries "default_open_depth" }

def ofBytes (bytes : ByteArray) : Except ConfigFault Config :=
  match String.fromUTF8? bytes with
  | none => .error .notText
  | some text =>
    match ofText? text with
    | none => .error .malformed
    | some config => .ok config

/-- An empty palette counts as none. -/
def usedPalette (c : Config) : Palette :=
  match c.palette with
  | none | some [] => .standard
  | some colors => colors

def usedDepth (c : Config) : Nat :=
  c.openDepth.getD Folding.standardDepth

def compiled (c : Config) : List (String × Except Glob.Fault Glob.Pattern) :=
  (c.exclude.getD []).map fun text => (text, Glob.Pattern.ofText text)

/-- The patterns to leave files out by; malformed ones are dropped. -/
def patterns (c : Config) : List Glob.Pattern :=
  c.compiled.filterMap fun (_, result) => result.toOption

def patternNotices (c : Config) : List Notice :=
  c.compiled.filterMap fun (text, result) =>
    match result with
    | .ok _ => none
    | .error fault => some (.badPattern text fault)

end Config

end Foldergram
