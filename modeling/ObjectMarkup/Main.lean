import ObjectMarkup.CommandLine.Run
import ObjectMarkup.Resource.FileTree

namespace ObjectMarkup.CommandLine

/-- Puts a directory into a tree. `path` is free of links. Of what a link leads to outside the
directory, only the place is put in; what cannot be read is left out. -/
partial def takeDown (tree : FileTree) (path : String) : IO FileTree := do
  let mut tree := tree.putDirectory path
  for entry in ← (← IO.FS.realPath path).readDir do
    let here := entry.path.toString
    let leadsTo ← try pure (some (← IO.FS.realPath here).toString) catch _ => pure none
    match leadsTo with
    | none => pure ()
    | some target =>
      if target ≠ here then
        tree := (tree.putDirectory target).put here (.link target)
      else
        let before := tree
        tree ← try
          match (← entry.path.metadata).type with
          | .dir => takeDown before here
          | .file => pure (before.put here (.file (← IO.FS.readBinFile here).toList))
          | _ => pure before
        catch _ => pure before
  return tree

def Request.perform (r : Request) : IO Outcome := do
  try
    let root := (← IO.FS.realPath r.root).toString
    return (r.withRoot root).outcome (← takeDown .empty root).fileSystem
  catch _ => return r.outcome FileTree.empty.fileSystem

end ObjectMarkup.CommandLine

open ObjectMarkup.CommandLine in
/-- Runs the program. What is below the root directory is taken down as a tree before the run, and
the run sees that tree alone. What it has to say about a failure goes to the error stream. -/
def main (arguments : List String) : IO UInt32 := do
  let outcome ← match Request.parse arguments with
    | .ok request =>
      if request.verbose then
        IO.eprintln s!"Reading {request.document} from {request.root}"
      request.perform
    | .error halt =>
      if halt = .misuse then
        IO.eprint helpText
      pure halt.outcome
  IO.print outcome.output
  if let some failure := outcome.failure then
    IO.eprintln s!"Error: {failure.message}"
  return outcome.exitCode.toUInt32
