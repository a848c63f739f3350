import SqlDump.Command.Basic

/-!
# The program

Reads the files that a command line names, answers it, and writes the files that changed.
-/

namespace SqlDump.Program

open Command

/-- What a path leads to on the disk, if it leads to anything. -/
def loadEntry (path : String) : IO (Option Entry) := do
  try
    let content ← IO.FS.readBinFile path
    return some (.file content.toList)
  catch
    | .noFileOrDirectory .. => return none
    | .inappropriateType .. => return some .folder
    | e => throw e

/-- The tree with what is on the disk on the way to a path. -/
def loadPath (files : Tree) (path : Text) : IO Tree := do
  let p := Path.ofText path
  let mut files := files
  let mut place := Tree.startOf p
  for name in p.steps do
    place := if name = Path.above then place.parent else place ++ [name]
    if let some entry ← loadEntry (String.ofList place.text) then
      files := files.put place entry
  return files

/-- Writes what an entry of a tree says to the disk. -/
def storeEntry (place : Place) : Entry → IO Unit
  | .folder => IO.FS.createDirAll (String.ofList place.text)
  | .file content => IO.FS.writeBinFile (String.ofList place.text) ⟨content.toArray⟩

/-- Answers a request on the files of the disk. -/
def answer (request : Request) : IO UInt32 := do
  let start ← IO.monoMsNow
  let files ← request.paths.foldlM loadPath {}
  let response := request.respond files
  for (place, entry) in changes files response.files do
    storeEntry place entry
  IO.print (String.ofList response.output)
  let elapsed := (← IO.monoMsNow) - start
  let time := Text.ofNat (elapsed / 1000) ++ '.' :: (Text.ofNat (elapsed % 1000 + 1000)).drop 1 ++ ['s']
  IO.eprint (String.ofList (response.noticeText (some time)))
  return UInt32.ofNat response.exit

end SqlDump.Program

open SqlDump Command in
def main (arguments : List String) : IO UInt32 := do
  match Request.ofArguments (arguments.map String.toList) with
  | .ok request => Program.answer request
  | .error .displayVersion =>
    IO.println "dump-translate 0.4.0"
    return 0
  | .error e =>
    if e.exit = 0 then IO.print (String.ofList usage)
    else IO.eprint (String.ofList ("error: " ++ e.name ++ "\n\n" ++ usage))
    return UInt32.ofNat e.exit
