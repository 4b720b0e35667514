import ScanSlot.Ssid
import ScanSlot.SortedSet
import ScanSlot.Text.Report

/-! What the result feed and the request source speak of: owners, frequencies, observed networks
and the reasons given to a subscriber. -/
namespace ScanSlot

structure Owner where
  id : UInt32
  deriving DecidableEq, Repr

def Owner.text (owner : Owner) : String :=
  toString owner.id.toNat

def Owner.report (owner : Owner) : String :=
  "Owner(" ++ owner.text ++ ")"

/-- In MHz. -/
structure Frequency where
  mhz : Int32
  deriving DecidableEq, Repr

def Frequency.text (frequency : Frequency) : String :=
  toString frequency.mhz.toInt

def Frequency.report (frequency : Frequency) : String :=
  frequency.text ++ "MHz"

instance : Ordered Frequency where
  Before f g := f.mhz.toInt < g.mhz.toInt
  decidable f g := inferInstanceAs (Decidable (f.mhz.toInt < g.mhz.toInt))
  irrefl f := Int.lt_irrefl f.mhz.toInt
  trans := Int.lt_trans
  total f g := by
    rcases Int.lt_trichotomy f.mhz.toInt g.mhz.toInt with less | same | more
    · exact .inl less
    · have same := Int32.toInt_inj.mp same
      cases f
      cases g
      exact .inr (.inl (congrArg Frequency.mk same))
    · exact .inr (.inr more)

structure ScanResult where
  ssid : Ssid
  bssid : String
  frequency : Frequency
  /-- Signal strength in dBm. -/
  rssi : Int32
  deriving DecidableEq, Repr

def ScanResult.report (result : ScanResult) : String :=
  Report.record "ScanResult"
    [("ssid", result.ssid.report), ("bssid", Report.quote result.bssid),
      ("frequency", result.frequency.report), ("rssi", toString result.rssi.toInt)]

/-- Why a subscribe request was rejected. -/
inductive Rejection where
  | alreadyRegistered
  | resourceBusy
  deriving DecidableEq, Repr

namespace Rejection

def all : List Rejection := [alreadyRegistered, resourceBusy]

def code : Rejection → Nat
  | alreadyRegistered => 1
  | resourceBusy => 2

def key : Rejection → String
  | alreadyRegistered => "already_registered"
  | resourceBusy => "resource_busy"

def report : Rejection → String
  | alreadyRegistered => "AlreadyRegistered"
  | resourceBusy => "ResourceBusy"

end Rejection

/-- Why a subscription was removed. -/
inductive Removal where
  | resultsDelivered
  | unregistered
  deriving DecidableEq, Repr

namespace Removal

def all : List Removal := [resultsDelivered, unregistered]

def code : Removal → Nat
  | resultsDelivered => 1
  | unregistered => 2

def key : Removal → String
  | resultsDelivered => "results_delivered"
  | unregistered => "unregistered"

def report : Removal → String
  | resultsDelivered => "ResultsDelivered"
  | unregistered => "Unregistered"

end Removal

end ScanSlot
