import Rollout.CommandLine.Reach

namespace Rollout.CommandLine

def takeFile (files : FileTree) (path : String) : IO FileTree := do
  let here ← IO.currentDir
  let place := here / path
  if ← place.isDir then return (files.makeDirectories path).toOption.getD files
  if !(← place.pathExists) then return files
  let content ← IO.FS.readFile place
  let parent := (FileTree.parentText? path).getD ""
  let tree := (files.makeDirectories parent).bind fun files ↦ files.write path content
  return tree.toOption.getD files

def takeStatistics (files : FileTree) (root : String) : IO FileTree := do
  let here ← IO.currentDir
  if !(← (here / root).isDir) then return files
  let found ← (here / root).walkDir
  (found.toList.filter fun p ↦ Source.isStatisticsName (p.fileName.getD "")).foldlM
    (fun files p ↦ takeFile files p.toString) ((files.makeDirectories root).toOption.getD files)

def takeFiles (i : Invocation) : IO FileTree := do
  let here ← IO.currentDir
  let files ← i.paths.foldlM takeFile (FileTree.empty here.toString)
  let files ← (i.furtherPaths files).foldlM takeFile files
  match i.statisticsRoot? files with
  | some root => takeStatistics files root
  | none => return files

def giveBack (change : List String × Option String) : IO Unit := do
  let path := "/" ++ String.intercalate "/" change.1
  match change.2 with
  | some content =>
    IO.FS.createDirAll ((FileTree.parentText? path).getD "/")
    IO.FS.writeFile path content
  | none => IO.FS.removeFile path

end Rollout.CommandLine

open Rollout CommandLine in
def main (arguments : List String) : IO UInt32 := do
  let files ← match CommandLine.read arguments with
    | .ok i => takeFiles i
    | .error _ => pure (FileTree.empty "/")
  let name ← IO.rand 0 (word64 * word64 - 1)
  let (m, outcome) := CommandLine.run (runName name) .never { files } arguments
  (changes files m.files).forM giveBack
  IO.print outcome.stdout
  IO.eprint outcome.stderr
  return outcome.exitCode.toUInt32
