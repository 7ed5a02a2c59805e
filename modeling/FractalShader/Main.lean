import FractalShader.Cli.Run

/-!
# The program

The outermost layer: it copies what a command may touch from the real disk,
answers the command line on the copy, and then prints the answer and carries
the changes over.  Everything that is decided is decided in the modules below.
-/

namespace FractalShader.Program

/-- The place that a path leads to from the place `home`. -/
def placeFrom (home : Place) (p : Path) : Place :=
  (pieces p.text.toList).foldl
    (fun place piece =>
      if piece = "." then place else if piece = ".." then place.tail else piece :: place)
    (if p.isAbsolute then [] else home)

/-- Copy what stands at a place, with everything in it. -/
partial def copyTree (d : Disk) (name : String) (dir : Place) : IO Disk := do
  let file := (Watch.placePath (name :: dir)).text
  let real := (← IO.FS.realPath "/") / file
  if ← real.isDir then
    let mut copied := d.put name dir .directory
    for entry in ← real.readDir do
      copied ← copyTree copied entry.fileName (name :: dir)
    return copied
  else if ← real.pathExists then
    return d.put name dir (.file (← IO.FS.readBinFile file))
  else return d

/-- Copy the directories that lead to a place, then what stands there. -/
def copyPlace (d : Disk) : Place → IO Disk
  | [] => return d
  | name :: dir => do
    let d ← copyDirectories d dir
    copyTree d name dir
where
  copyDirectories (d : Disk) : Place → IO Disk
    | [] => return d
    | name :: dir => do
      let d ← copyDirectories d dir
      let file := (Watch.placePath (name :: dir)).text
      let real := (← IO.FS.realPath "/") / file
      if ← real.isDir then return d.put name dir .directory
      else if ← real.pathExists then return d.put name dir (.file (← IO.FS.readBinFile file))
      else return d

/-- Carry the changes from one disk to another over to the real disk. -/
def carryOver (before after : Disk) : IO Unit := do
  for (place, node) in before.entries do
    if after.node? place = none && !node.isDirectory then
      IO.FS.removeFile (Watch.placePath place).text
  for (place, node) in after.entries.reverse do
    unless before.node? place = some node do
      match node with
      | .directory => IO.FS.createDirAll (Watch.placePath place).text
      | .file content => IO.FS.writeBinFile (Watch.placePath place).text content

/-- How long a watcher waits between two looks, in milliseconds. -/
def pause : UInt32 := 200

/-- Answer the changes of a store's directory for ever. -/
partial def watch (store : Store) (strict : Bool) (show? : Event → String) (home : Place)
    (seen : Disk) : IO Unit := do
  IO.sleep pause
  let now ← copyPlace (Disk.empty home) (placeFrom home store.root)
  let mut after := now
  for change in Watch.changesBetween seen now do
    let o := (Watch.respond store strict change).run after
    IO.eprint (String.join (o.events.map show?))
    after := o.disk
  carryOver now after
  watch store strict show? home after

/-- Answer a command line on the real disk. -/
def run (args : List String) : IO UInt32 := do
  let filter ← IO.getEnv "RUST_LOG"
  let here ← IO.FS.realPath "."
  let home := (pieces here.toString.toList).reverse
  let touched : List Path := match Cli.Request.parse args with
    | .run i => ⟨i.dir⟩ :: (i.settings.map Path.mk).toList
    | _ => []
  let mut before := Disk.empty home
  for p in touched do
    before ← copyPlace before (placeFrom home p)
  let a := Cli.answer args filter before
  carryOver before a.disk
  IO.print a.stdout
  IO.eprint a.stderr
  match a.watching, Cli.Request.parse args with
  | some (store, strict), .run i =>
    let f := Log.Filter.choose filter i.verbose
    watch store strict (Log.shown f i.verbose) home a.disk
  | _, _ => pure ()
  return UInt32.ofNat a.exit

end FractalShader.Program

def main (args : List String) : IO UInt32 := FractalShader.Program.run args
