import HeaderCompression.CommandLine

namespace HeaderCompression.CommandLine

def readContent (path : String) : IO (Except String (List UInt8)) := do
  match ← (IO.FS.readBinFile path).toBaseIO with
  | .ok content => return .ok content.toList
  | .error (.noFileOrDirectory ..) => return .error "No such file or directory (os error 2)"
  | .error error => return .error (toString error)

def readFiles (request : Request) : IO Files := do
  let rules ← readContent request.rulesPath
  match request.command with
  | .capture path _ _ _ => return ⟨rules, Capture.load (← readContent path)⟩
  | _ => return ⟨rules, .ok []⟩

def Result.print (result : Result) : IO UInt32 := do
  IO.print result.output
  IO.eprint result.errors
  return UInt32.ofNat result.code

end HeaderCompression.CommandLine

open HeaderCompression.CommandLine in
def main (arguments : List String) : IO UInt32 := do
  match Request.ofArguments? arguments with
  | none => usage.print
  | some request => (request.run (← readFiles request)).print
