/-
The command on a real disk.

The folders and files that the arguments name are read into a tree of files, the command runs on that tree, and the files
that it has changed are written back. Of the files below a folder only sources and configuration files are read; all
others are known by name.
-/
import SignalWiring.Cli.Command
import Std.Time.DateTime
import Std.Time.Format

namespace SignalWiring.Main

/-- the text of a file matters to the command -/
def isRead (name : String) : Bool := name.endsWith Discovery.sourceSuffix || name.endsWith ".toml"

/-- what stands at a place on disk, if anything -/
partial def load (place : String) : IO (Option FileTree) := do
  let here := (← IO.currentDir) / place
  if ← here.isDir then
    let mut found := []
    for entry in ← here.readDir do
      match ← load (place ++ "/" ++ entry.fileName) with
      | some t => found := (entry.fileName, t) :: found
      | none => pure ()
    return some (.folder found)
  else if ← here.pathExists then
    if isRead place then
      try
        return some (.file (← IO.FS.readBinFile here).toList true)
      catch _ => return some (.file [] false)
    else return some (.file [] false)
  else return none

/-- the tree with what stands at a path on disk -/
def mount (files : FileTree) (path : Path) : IO FileTree := do
  match ← load path.toString with
  | none => return files
  | some found =>
    let files := (files.makeFolder path.parent).toOption.getD files
    match FileTree.locate files [] path.parts with
    | .ok place => return files.setAt place found
    | .error _ => return files

/-- the part of the disk that a request is about -/
def loadFor (r : Cli.Request) : IO FileTree := do
  let mut files := FileTree.empty
  for path in [Path.ofString r.source, r.outFolder] ++ (r.config.map Path.ofString).toList do
    if (files.get path).toOption.isNone then files ← mount files path
  return files

/-- write back the files below a folder that have changed -/
def writeBack (folder : Path) (before after : FileTree) : IO Unit := do
  match FileTree.locate after [] folder.parts with
  | .error _ => return
  | .ok place =>
    for (file, bytes) in after.files do
      if place.isPrefixOf file && !before.files.contains (file, bytes) then
        let target := folder / Text.join "/" (file.drop place.length)
        IO.FS.createDirAll ((← IO.currentDir) / target.parent.toString)
        IO.FS.writeBinFile ((← IO.currentDir) / target.toString) (ByteArray.mk bytes.toArray)

/-- the present moment in universal time -/
def moment : IO String := do
  let now ← Std.Time.Timestamp.now
  let clock := Std.Time.PlainDateTime.ofWallTime (Std.Time.WallTime.ofTimestamp now Std.Time.TimeZone.UTC.offset)
  return clock.format "uuuu-MM-dd'T'HH:mm:ss.SSSSSS'Z'"

/-- run the command and show its answer -/
def perform (arguments : List String) : IO UInt32 := do
  let asked := Cli.ask arguments
  let before ← match asked with
    | .run r => loadFor r
    | _ => pure FileTree.empty
  let effect := Cli.run arguments (← moment) before
  if let .run r := asked then writeBack r.outFolder before effect.files
  match effect.outcome with
  | .ok answer =>
    (← IO.getStderr).putStr answer.err
    (← IO.getStdout).putStr answer.out
    return answer.exit.toUInt32
  | .error fault =>
    (← IO.getStderr).putStrLn fault.message
    return 1

end SignalWiring.Main

def main (arguments : List String) : IO UInt32 := SignalWiring.Main.perform arguments
