import ScanSlot.Fault

/-! A peer that follows a script: its calls can fail, its hooks can fire at once or outlive their
unlinking, and it remembers every call. -/
namespace ScanSlot

structure PeerScript where
  failLink : Bool := false
  dieOnLink : Bool := false
  failUnlink : Bool := false
  keepHooks : Bool := false
  deriving Repr

/-- A call made to a scripted peer. -/
inductive PeerCall where
  | linkFailed
  | linked (link : Nat)
  | unlinked (link : Nat)
  deriving DecidableEq, Repr

def PeerCall.text : PeerCall → String
  | .linkFailed => "link failed"
  | .linked link => "link " ++ toString link
  | .unlinked link => "unlink " ++ toString link

structure ScriptedPeer (Hook : Type) where
  name : String
  script : PeerScript
  hooks : List (Nat × Hook) := []
  nextLink : Nat := 1
  calls : List PeerCall := []
  deriving Repr

namespace ScriptedPeer
variable {Hook : Type}

def report (p : ScriptedPeer Hook) : String :=
  "ScriptedPeer(" ++ p.name ++ ")"

/-- Besides the answer gives the hook that fires at once, if it does. -/
def link (p : ScriptedPeer Hook) (hook : Hook) :
    Except Fault Nat × Option Hook × ScriptedPeer Hook :=
  if p.script.failLink then
    (.error .peerDead, none, { p with calls := p.calls ++ [.linkFailed] })
  else
    let linked :=
      { p with nextLink := p.nextLink + 1, calls := p.calls ++ [.linked p.nextLink] }
    if p.script.dieOnLink then (.ok p.nextLink, some hook, linked)
    else (.ok p.nextLink, none, { linked with hooks := p.hooks ++ [(p.nextLink, hook)] })

def unlink (p : ScriptedPeer Hook) (link : Nat) : Except Fault Unit × ScriptedPeer Hook :=
  let called := { p with calls := p.calls ++ [.unlinked link] }
  if p.script.failUnlink then (.error (.notLinked link), called)
  else if p.script.keepHooks then (.ok (), called)
  else (.ok (), { called with hooks := p.hooks.filter (·.1 != link) })

/-- Takes all stored hooks in the order of their links. -/
def fireAll (p : ScriptedPeer Hook) : List Hook × ScriptedPeer Hook :=
  (p.hooks.map (·.2), { p with hooks := [] })

/-- Takes one stored hook. -/
def fire (p : ScriptedPeer Hook) (link : Nat) : Option Hook × ScriptedPeer Hook :=
  ((p.hooks.find? (·.1 == link)).map (·.2),
    { p with hooks := p.hooks.filter (·.1 != link) })

end ScriptedPeer
end ScanSlot
