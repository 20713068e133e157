import ScalarScript.Console.Command

set_option autoImplicit false

namespace ScalarScript

partial def readAll (stream : IO.FS.Stream) (gathered : String) : IO String := do
  let line ← stream.getLine
  if line.isEmpty then return gathered
  readAll stream (gathered ++ line)

def readFolder (paths : List String) : IO Folder := do
  let mut files := #[]
  for path in paths do
    try
      files := files.push (path, ← IO.FS.readFile path)
    catch _ => pure ()
  return ⟨files.toList⟩

def numberOfBytes (bytes : ByteArray) : UInt64 :=
  bytes.foldl (fun n byte => n * 256 + byte.toUInt64) 0

def Command.perform (arguments : List String) : IO UInt32 := do
  let output ← IO.getStdout
  let errors ← IO.getStderr
  let folder ← readFolder (Command.paths arguments)
  let surroundings : Surroundings :=
    { folder
      input := Text.lines (← readAll (← IO.getStdin) "")
      outputIsTerminal := ← output.isTty
      errorsAreTerminal := ← errors.isTty
      entropy := numberOfBytes (← IO.getRandomBytes 8) }
  let completion := Command.run surroundings arguments
  for printed in completion.printed do
    match printed with
    | .text s =>
      output.putStr s
      output.flush
    | .error line => errors.putStrLn line
  for (path, contents) in completion.folder.files.drop folder.files.length do
    IO.FS.writeFile path contents
  return UInt32.ofNat completion.status

end ScalarScript

def main (arguments : List String) : IO UInt32 := ScalarScript.Command.perform arguments
