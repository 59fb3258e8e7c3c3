/-
The command: from arguments and files to an exit code, two outputs and changed files.

The exit code is 0 when generation has passed, 1 when it has failed, and 2 when the arguments, the configuration or the
sources are not what they must be. Files change only when a run comes to its end: its fragments are written whether or
not there are errors among its diagnostics.
-/
import SignalWiring.Cli.Arguments
import SignalWiring.Cli.Usage
import SignalWiring.ConfigFile
import SignalWiring.CSharp.Outline
import SignalWiring.Discovery
import SignalWiring.Log.Setup
import SignalWiring.Pipeline
import SignalWiring.Writer

namespace SignalWiring.Cli

def exitPassed : Nat := 0

def exitFailed : Nat := 1

/-- arguments, configuration or sources are wrong -/
def exitMisused : Nat := 2

/-- what the command answers: its exit code, and its standard and error output -/
structure Answer where
  exit : Nat
  out : String := ""
  err : String := ""
  deriving DecidableEq, Repr

/-- the files after the command, and its answer or the fault that ended it -/
structure Effect where
  files : FileTree
  outcome : Except Fault Answer

/-- the name of the configuration file beside the sources -/
def configName : String := "pyproject.toml"

/-- the configuration in the file that is named, else in the one beside the sources, else the standard one -/
def findConfig (files : FileTree) (source : Path) (named : Option Path) : Except Fault Config :=
  match named with
  | some path => ConfigFile.load files path
  | none =>
    let candidate := source / configName
    if files.isFile candidate then ConfigFile.load files candidate else .ok Config.standard

/-- the configuration of a run and its sources -/
def prepare (files : FileTree) (source : Path) (named : Option Path) : Except Fault (Config × List Path) := do
  let config ← findConfig files source named
  let paths ← Discovery.discover files source Discovery.standardExcludes config.generated
  return (config, paths)

/-- a fault before the run that the command reports itself -/
def isMisuse : Fault → Bool
  | .rootNotFolder _ | .system .notFolder _ => true
  | fault => fault.isOwn

/-- the exit code of a fault that halts a run, if the command reports it itself -/
def haltExit? : Fault → Option Nat
  | .duplicateEvent .. => some exitFailed
  | .duplicateArtifact _ => some exitMisused
  | _ => none

/-- the exit code of a run that came to its end -/
def exitOf (g : Generation) : Nat := if g.passed then exitPassed else exitFailed

/-- run on discovered sources, which are read with `read`, and write the fragments -/
def generateWith (read : SourceReader) (r : Request) (setup : Log.Setup) (moment : String) (files : FileTree)
    (config : Config) (paths : List Path) : Effect :=
  let step := (Pipeline.reading read config).runPaths .fresh files paths
  match step.outcome with
  | .error fault =>
    match haltExit? fault with
    | some code =>
      let (logOut, logErr) := setup.write moment step.records
      ⟨files, .ok ⟨code, logOut, logErr ++ r.style.failure Report.standardWidth fault.message⟩⟩
    | none => ⟨files, .error fault⟩
  | .ok g =>
    let writing := Writer.write r.outFolder files g.fragments
    match writing.outcome with
    | .error fault => ⟨writing.files, .error fault⟩
    | .ok _ =>
      let (logOut, logErr) := setup.write moment (step.records ++ writing.records)
      ⟨writing.files, .ok ⟨exitOf g, logOut ++ r.style.report Report.standardWidth g, logErr⟩⟩

def performWith (read : SourceReader) (r : Request) (moment : String) (files : FileTree) : Effect :=
  match Log.Setup.fresh.configure r.level r.logFormat.label with
  | .error fault => ⟨files, .ok ⟨exitMisused, "", refusalText fault.message⟩⟩
  | .ok setup =>
    match prepare files (Path.ofString r.source) (r.config.map Path.ofString) with
    | .error fault =>
      if isMisuse fault then
        ⟨files, .ok ⟨exitMisused, "", r.style.failure Report.standardWidth fault.message⟩⟩
      else ⟨files, .error fault⟩
    | .ok (config, paths) => generateWith read r setup moment files config paths

/-- run the command on files whose sources are read with `read`; log records are made at `moment` -/
def runWith (read : SourceReader) (arguments : List String) (moment : String) (files : FileTree) : Effect :=
  match ask arguments with
  | .help => ⟨files, .ok ⟨exitPassed, helpText, ""⟩⟩
  | .version => ⟨files, .ok ⟨exitPassed, versionText, ""⟩⟩
  | .refused message => ⟨files, .ok ⟨exitMisused, "", refusalText message⟩⟩
  | .run r => performWith read r moment files

/-! ## On C# sources -/

/-- reads every artifact by its outline; what is said about the command is said of every reader -/
def sourceReader : SourceReader := fun a => some (CSharp.outline a.content)

/-- run the command on files; log records are made at `moment` -/
def run (arguments : List String) (moment : String) (files : FileTree) : Effect :=
  runWith sourceReader arguments moment files

end SignalWiring.Cli
