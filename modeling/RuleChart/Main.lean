import RuleChart.Command.Run

namespace RuleChart.Command

/-- The system's number of an error; some layers report it negated. -/
def systemCode (code : UInt32) : Nat := code.toInt32.toInt.natAbs

def fileFault : IO.Error → FileFault
  | .noFileOrDirectory .. => .missing
  | .inappropriateType _ code _ =>
      if systemCode code = 20 then .notDirectory else .directory
  | .permissionDenied _ code _ => { code := systemCode code, reason := "Permission denied" }
  | .resourceBusy code _ => { code := systemCode code, reason := "Device or resource busy" }
  | _ => { code := 5, reason := "Input/output error" }

def readSource : Source → IO (Except InputFault (List UInt8))
  | .standardInput => do
      let bytes ← (← IO.getStdin).readBinToEnd
      return .ok bytes.toList
  | .file path => do
      match ← (IO.FS.readBinFile path).toBaseIO with
      | .ok bytes => return .ok bytes.toList
      | .error error => return .error (.unreadable path (fileFault error))

end RuleChart.Command

open RuleChart.Command in
def main (args : List String) : IO UInt32 := do
  match Arguments.parse args with
  | .error .help =>
      IO.println UsageFault.help.message
      return 0
  | .error fault =>
      IO.eprintln ("error: " ++ fault.message)
      return 2
  | .ok arguments =>
      let response := respond arguments (← readSource arguments.source)
      IO.print response.output
      IO.eprint response.errors
      return response.exitCode.toUInt32
