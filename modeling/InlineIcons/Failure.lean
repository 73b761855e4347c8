import InlineIcons.Output
import InlineIcons.Scan
import InlineIcons.Settings
import InlineIcons.Watch

/-!
What can end a run, by the part of the work that failed.
-/
namespace InlineIcons

inductive Failure where
  | scan (e : ScanError)
  | generate (e : AssetError)
  | settings (e : SettingsError)
  | write (e : WriteError)
  | watch (e : WatchError)
  | file (fault : FileFault)
  /-- Generated files differ from what would be generated. -/
  | outdated (count : Nat)
  /-- A settings file is there already. -/
  | settingsExist
  deriving Repr

namespace Failure

def message : Failure → String
  | scan e => "Failed to scan directory: " ++ e.message
  | generate e => "Failed to generate code: asset failed to load: " ++ e.message
  | settings e => "Failed to load configuration: " ++ e.message
  | write e => "Failed to write output: " ++ e.message
  | watch e => "Watch error: " ++ e.message
  | file fault => "IO error: " ++ fault.message
  | outdated count =>
    "Validation failed: " ++ toString count ++ " generated file(s) out of date"
  | settingsExist => "Validation failed: Configuration file already exists"

/-- Whether the run came to its end and found that something is not as it should be. -/
def isValidation : Failure → Bool
  | outdated _ | settingsExist => true
  | _ => false

end Failure
end InlineIcons
