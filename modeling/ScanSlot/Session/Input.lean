import ScanSlot.Script.Callback

/-! Network names and results as they are handed in, before they are checked. -/
namespace ScanSlot

inductive RawSsid where
  | text (text : String)
  | bytes (bytes : List UInt8)

def RawSsid.build : RawSsid → Except Fault Ssid
  | text t => Ssid.ofText t
  | bytes bs => Ssid.ofBytes bs

structure RawResult where
  ssid : RawSsid
  bssid : String
  frequency : Frequency
  rssi : Int32

def RawResult.build (r : RawResult) : Except Fault ScanResult := do
  return ⟨← r.ssid.build, r.bssid, r.frequency, r.rssi⟩

/-- The callback that comes with a request. -/
inductive CallbackForm where
  | channel (capacity : Nat)
  | scripted (fails : List Event.Kind)

/-- A request whose peer is known by name; the callback is made with it and named. -/
structure RequestForm where
  owner : Owner
  peer : String
  callback : String
  ssids : List RawSsid
  frequencies : List Frequency
  form : CallbackForm

end ScanSlot
