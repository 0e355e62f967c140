import PlanarKalman.Demo

/-!
# The command line

Runs the demonstration in the working directory.
-/

open PlanarKalman

def writeTableFile (name : String) (table : Option String) : IO Unit :=
  match table with
  | none => pure ()
  | some text => IO.FS.writeFile name text

def main (args : List String) : IO UInt32 := do
  let result := Demo.run args
  writeTableFile "out-walk.csv" result.walkTable
  writeTableFile "filtered-out-walk.csv" result.runTable
  IO.print result.stdout
  IO.eprint result.stderr
  pure result.code
