-- SUMMARY: The programs: reading the places that a command is about, calling it, and writing back what it changed.
import MdxSafe.Command.AddRepository
import MdxSafe.Command.Fix
import MdxSafe.Config.Load

/-!
# The programs

The name under which the program is started tells the command. The command works on a disk that holds the
places it is about; afterwards the files that it changed are written.
-/

namespace MdxSafe.Program

/-- The entry that stands under a name of a directory. What is below a directory is read only if `deep` holds. -/
partial def readEntry (deep : Bool) (e : IO.FS.DirEntry) : IO Entry := do
  match (← e.path.symlinkMetadata).type with
  | .file => return .file (← IO.FS.readBinFile e.path).toList
  | .symlink => return .link (← IO.FS.realPath e.path).toString.toList
  | .other => return .special
  | .dir =>
    if !deep then return .directory true []
    try
      let entries ← (← e.path.readDir).toList.mapM fun inner => do
        return (inner.fileName.toList, ← readEntry deep inner)
      return .directory true entries
    catch _ => return .directory false []

/-- The disk with what stands at a path, if anything does. -/
def look (deep : Bool) (d : Disk) (p : Path) : IO Disk := do
  if !deep && (d.isThere p).toOption.getD true then return d
  try
    let e ← readEntry deep ⟨String.ofList p.parent.toText, String.ofList p.name⟩
    return d.place p e
  catch _ => return d

/-- Write the files, and make the directories, in which an entry differs from an older one. -/
partial def writeBack (path : String) (old : Option Entry) (new : Entry) : IO Unit := do
  match old, new with
  | some (.file before), .file after =>
    if before != after then IO.FS.writeBinFile path ⟨after.toArray⟩
  | none, .file after => IO.FS.writeBinFile path ⟨after.toArray⟩
  | some (.directory _ before), .directory _ after =>
    for (name, e) in after do
      writeBack (path ++ "/" ++ String.ofList name) (Entry.find? before name) e
  | none, .directory _ after =>
    IO.FS.createDirAll path
    for (name, e) in after do
      writeBack (path ++ "/" ++ String.ofList name) none e
  | _, _ => return

/-- The places that a call to make documents safe is about: those to be read with all that is below them,
and those by themselves. -/
def placesToFix (base : Path) (c : Config) (args : List Text) : List Path × List Path :=
  match Command.FixRequest.ofArguments args, c.loader with
  | .ok r, .ok sources =>
    let target := (r.exportName.bind fun n => (Report.exportPath n).toOption).getD {}
    let target :=
      if Report.Address.isAddress target.toText then
        ((Report.Address.file target.toText).toOption.map Path.ofText).getD {}
      else target
    let roots := Path.resolveRoots ((r.rootNames sources.roots).getD []) base
    (roots, [base.join target.parent, base.join target])
  | _, _ => ([], [])

/-- The places that a call to add a repository is about. -/
def placesToAdd (base : Path) (c : Config) (args : List Text) : List Path :=
  match c.onboarding with
  | .ok s =>
    let docs := base.join (.ofText s.docsDir)
    [s.workflowPath, s.sidebarsPath, s.configPath].map (fun t => base.join (.ofText t))
      ++ docs :: args.map fun a => docs.join (.ofText (RepoName.ofText a))
  | .error _ => []

/-- Call the command of a name. -/
def call (name : String) (args : List Text) : IO UInt32 := do
  let start ← IO.monoMsNow
  let base := Path.ofText (← IO.currentDir).toString.toList
  let empty : Disk := ⟨.directory true [], base.parts⟩
  let bare := (empty.ensureDirectories base).1
  let d ← look false bare (base.child Config.overrideName)
  let loaded := Config.load d none []
  for e in loaded.log do
    if Log.Level.warning.number ≤ e.level.number then IO.eprintln (String.ofList e.message)
  if let some e := loaded.failure then
    IO.eprintln (String.ofList e.message)
    return 1
  let c := loaded.config
  let (o, d) ← if name = "mdx-add-repo" then do
      let d ← (placesToAdd base c args).foldlM (look false) d
      pure (Command.addRepository d c args, d)
    else do
      let (roots, files) := placesToFix base c args
      let d ← files.foldlM (look false) (← roots.foldlM (look true) d)
      let time := Binary64.ofRatio false ((← IO.monoMsNow) - start) 1000
      pure (Command.fix d c time args, d)
  IO.print (String.ofList o.output)
  if let some t := o.errors then IO.eprint (String.ofList t)
  writeBack "" (some d.root) o.disk.root
  match o.status with
  | .ok n => return n.toUInt32
  | .error e => do
    IO.eprintln (String.ofList e.message)
    return 1

end MdxSafe.Program

def main (args : List String) : IO UInt32 := do
  MdxSafe.Program.call ((← IO.appPath).fileName.getD "") (args.map String.toList)
