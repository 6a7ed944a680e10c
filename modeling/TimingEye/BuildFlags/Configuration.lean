import TimingEye.BuildFlags.FileTree
import TimingEye.Text.Blank
import TimingEye.Text.Quoted

/-!
# Build flags of a gateware

The gateware leaves behind a directory of generated files, among them a list of the peripherals it
contains, one to a line.  A build step turns each line into a compiler flag and passes the
directory on.  It prints instructions for the build tool:

* which variable the step depends on, and then the directory and the file it settled on;
* one flag for each line that is not blank, in order, without the blank ends of the line.

The directory is the one the environment names; failing that, one that lies at a fixed place
relative to the package.
-/

namespace TimingEye
namespace BuildFlags

structure Environment where
  buildinc : Option Octets := none
  manifest : Option Octets := none

/-! ## Failures -/

inductive Failure where
  /-- The directory of the package is needed and not set. -/
  | manifestUnset
  /-- The directory of the package is needed and not text. -/
  | manifestNotText (octets : Octets)
  | unreadable (cause : FileError)
  /-- A line of the list is not text. -/
  | lineNotText
  deriving DecidableEq, Repr

namespace Failure

def cause : Failure → String
  | manifestUnset => "NotPresent"
  | manifestNotText octets => "NotUnicode(" ++ quoted ⟨octets.toArray⟩ ++ ")"
  | unreadable error =>
    namedFields "Os" [("code", decimal error.code), ("kind", error.kind),
      ("message", "\"" ++ error.text ++ "\"")]
  | lineNotText =>
    namedFields "Error" [("kind", "InvalidData"),
      ("message", "\"stream did not contain valid UTF-8\"")]

def message (failure : Failure) : String :=
  "called `Result::unwrap()` on an `Err` value: " ++ failure.cause

end Failure

/-! ## The directory -/

/-- Appends a relative path to a path. -/
def join (base relative : String) : String :=
  if base = "" ∨ base.toList.getLast? = some '/' then base ++ relative
  else base ++ "/" ++ relative

/-- Where the files lie relative to the package, unless the environment says otherwise. -/
def defaultDirectory : String :=
  "../testbed/software/include"

def directory (environment : Environment) : Except Failure String :=
  match environment.buildinc.bind Octets.text? with
  | some directory => .ok directory
  | none =>
    -- Unset, or set to something that is not text.
    match environment.manifest with
    | none => .error .manifestUnset
    | some octets =>
      match octets.text? with
      | some package => .ok (join package defaultDirectory)
      | none => .error (.manifestNotText octets)

/-- The list of peripherals in a directory of generated files. -/
def listFile (directory : String) : String :=
  join (join directory "generated") "rust-cfg"

/-! ## The list -/

/-- The lines of a file.  A last line need not be terminated. -/
def lines (content : Octets) : List Octets :=
  let parts := Octets.splitOn 10 content
  -- A terminated last line leaves an empty part behind it, which is no line.
  if parts.getLast? = some [] then parts.dropLast else parts

/-- The flags of some lines, up to the first line that is not text. -/
def flags : List Octets → List String × Option Failure
  | [] => ([], none)
  | line :: rest =>
    match line.text? with
    | none => ([], some .lineNotText)
    | some text =>
      let (found, failure) := flags rest
      let flag := trim text
      (if flag = "" then found else flag :: found, failure)

/-! ## What is printed -/

inductive Instruction where
  | dependsOnVariable
  | exportDirectory (directory : String)
  | dependsOnFile (path : String)
  | flag (name : String)
  deriving DecidableEq, Repr

def Instruction.line : Instruction → String
  | dependsOnVariable => "cargo:rerun-if-env-changed=BUILDINC_DIRECTORY\n"
  | exportDirectory directory => "cargo:rustc-env=BUILDINC_DIRECTORY=" ++ directory ++ "\n"
  | dependsOnFile path => "cargo:rerun-if-changed=" ++ path ++ "\n"
  | flag name => "cargo:rustc-cfg=" ++ name ++ "\n"

/-- What the step prints, and why it fails if it does. -/
structure Outcome where
  instructions : List Instruction
  failure : Option Failure
  deriving DecidableEq, Repr

def Outcome.printed (outcome : Outcome) : String :=
  String.join (outcome.instructions.map Instruction.line)

def configure (environment : Environment) (tree : FileTree) : Outcome :=
  match directory environment with
  | .error failure => { instructions := [.dependsOnVariable], failure := some failure }
  | .ok directory =>
    let header := [.dependsOnVariable, .exportDirectory directory,
      .dependsOnFile (listFile directory)]
    match tree.read (Octets.ofString (listFile directory)) with
    | .error cause => { instructions := header, failure := some (.unreadable cause) }
    | .ok content =>
      let (found, failure) := flags (lines content)
      { instructions := header ++ found.map .flag, failure }

end BuildFlags
end TimingEye
