import ScanSlot.Scan

/-! The notifications that a subscriber receives. -/
namespace ScanSlot

inductive Event where
  | registerSuccess
  | registerFailed (reason : Rejection)
  | scanResultsAvailable (results : List ScanResult)
  | removed (reason : Removal)
  deriving DecidableEq, Repr

namespace Event

def report : Event → String
  | registerSuccess => "RegisterSuccess"
  | registerFailed reason => Report.record "RegisterFailed" [("reason", reason.report)]
  | scanResultsAvailable results =>
      Report.record "ScanResultsAvailable"
        [("results", Report.sequence (results.map ScanResult.report))]
  | removed reason => Report.record "Removed" [("reason", reason.report)]

inductive Kind where
  | registerSuccess
  | registerFailed
  | scanResultsAvailable
  | removed
  deriving DecidableEq, Repr

namespace Kind

def all : List Kind := [registerSuccess, registerFailed, scanResultsAvailable, removed]

def key : Kind → String
  | registerSuccess => "register_success"
  | registerFailed => "register_failed"
  | scanResultsAvailable => "scan_results_available"
  | removed => "removed"

end Kind

def kind : Event → Kind
  | registerSuccess => .registerSuccess
  | registerFailed _ => .registerFailed
  | scanResultsAvailable _ => .scanResultsAvailable
  | removed _ => .removed

end Event
end ScanSlot
