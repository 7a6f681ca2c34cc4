import DocTree.CommandLine.Run

/-!
# The program

Reads the files that a request names, carries it out, and writes what it came to.
-/

namespace DocTree.CommandLine

/-- Why reading a file failed, by the number of the failure in the system. -/
def FileError.ofNumber (number : UInt32) (words : String) : FileError :=
  match number.toNat with
  | 2 => .absent
  | 13 => .notPermitted
  | 20 => .notDirectory
  | 21 => .isDirectory
  | 36 => .nameTooLong
  | _ => .other words

/-- Why reading a file failed. -/
def FileError.ofFailure (failure : IO.Error) : FileError :=
  match failure with
  | .noFileOrDirectory _ number words => ofNumber number words
  | .permissionDenied _ number words => ofNumber number words
  | .inappropriateType _ number words => ofNumber number words
  | .invalidArgument _ number words => ofNumber number words
  | failure => .other (toString failure)

/-- The text of a file, or why it cannot be read. -/
def fileText (name : String) : IO (Except FileError String) := do
  try
    match String.fromUTF8? (← IO.FS.readBinFile name) with
    | some text => return .ok text
    | none => return .error .notText
  catch failure => return .error (FileError.ofFailure failure)

end DocTree.CommandLine

open DocTree.CommandLine

def main (arguments : List String) : IO UInt32 := do
  let names := match Request.parse arguments with
    | .ok request => request.fileNames
    | .error _ => []
  let mut texts : List (String × Except FileError String) := []
  for name in names do
    texts := (name, ← fileText name) :: texts
  let completed := runArguments arguments fun name =>
    (texts.lookup name).getD (.error .absent)
  (← IO.getStdout).putStr completed.output
  (← IO.getStderr).putStr completed.errors
  return completed.status.toUInt32
