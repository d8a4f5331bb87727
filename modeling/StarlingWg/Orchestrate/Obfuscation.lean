import StarlingWg.Orchestrate.Config

namespace StarlingWg.Orchestrate

open Control

-- The lines of a UAPI configuration text the orchestrator writes, before
-- they are rendered as key=value.
inductive UapiLine
  | privateKey (key : Key)
  | listenPort (port : Nat)
  | jc (count : UInt32)
  | jmin (size : UInt32)
  | jmax (size : UInt32)
  | s1 (padding : UInt32)
  | s2 (padding : UInt32)
  | s3 (padding : UInt32)
  | s4 (padding : UInt32)
  | h1 (lo hi : UInt32)
  | h2 (lo hi : UInt32)
  | h3 (lo hi : UInt32)
  | h4 (lo hi : UInt32)
  | headerProtectionKey (key : Key)
  | i (index : Nat) (chain : GoString)
  | contentPaddingAddition (lo hi : UInt32)
  | publicKey (key : Key)
  | endpoint (addr : AddrPort)
  | persistentKeepaliveInterval (seconds : Nat)
  | replaceAllowedIPs
  | allowedIP (p : Prefix)
  deriving DecidableEq, Repr

def lineUnless (absent : Bool) (line : UapiLine) : List UapiLine :=
  if absent then [] else [line]

def ObfuscationProfile.uapi (p : ObfuscationProfile) : List UapiLine :=
  lineUnless (p.jc = 0) (.jc p.jc) ++ lineUnless (p.jmin = 0) (.jmin p.jmin) ++
  lineUnless (p.jmax = 0) (.jmax p.jmax) ++
  lineUnless (p.s1 = 0) (.s1 p.s1) ++ lineUnless (p.s2 = 0) (.s2 p.s2) ++
  lineUnless (p.s3 = 0) (.s3 p.s3) ++ lineUnless (p.s4 = 0) (.s4 p.s4) ++
  lineUnless (p.h1Hi = 0) (.h1 p.h1Lo p.h1Hi) ++ lineUnless (p.h2Hi = 0) (.h2 p.h2Lo p.h2Hi) ++
  lineUnless (p.h3Hi = 0) (.h3 p.h3Lo p.h3Hi) ++ lineUnless (p.h4Hi = 0) (.h4 p.h4Lo p.h4Hi) ++
  lineUnless (!p.hasHeaderProtectionKey) (.headerProtectionKey p.headerProtectionKey) ++
  lineUnless (p.i1 = "") (.i 1 p.i1) ++ lineUnless (p.i2 = "") (.i 2 p.i2) ++
  lineUnless (p.i3 = "") (.i 3 p.i3) ++ lineUnless (p.i4 = "") (.i 4 p.i4) ++
  lineUnless (p.i5 = "") (.i 5 p.i5) ++
  lineUnless (p.contentPaddingAdditionHi = 0)
    (.contentPaddingAddition p.contentPaddingAdditionLo p.contentPaddingAdditionHi)

def ObfuscationProfile.toWireParams (p : ObfuscationProfile) (listenEndpoint : AddrPort) :
    CloakedParams where
  s1 := p.s1
  s2 := p.s2
  s3 := p.s3
  s4 := p.s4
  h1Lo := p.h1Lo
  h1Hi := p.h1Hi
  h2Lo := p.h2Lo
  h2Hi := p.h2Hi
  h3Lo := p.h3Lo
  h3Hi := p.h3Hi
  h4Lo := p.h4Lo
  h4Hi := p.h4Hi
  hasHeaderProtection := p.hasHeaderProtectionKey
  headerProtectionKey := p.headerProtectionKey
  listenEndpoint := listenEndpoint

def cloakedParamsUAPI (m : CloakedParams) : List UapiLine :=
  lineUnless (m.s1 = 0) (.s1 m.s1) ++ lineUnless (m.s2 = 0) (.s2 m.s2) ++
  lineUnless (m.s3 = 0) (.s3 m.s3) ++ lineUnless (m.s4 = 0) (.s4 m.s4) ++
  lineUnless (m.h1Hi = 0) (.h1 m.h1Lo m.h1Hi) ++ lineUnless (m.h2Hi = 0) (.h2 m.h2Lo m.h2Hi) ++
  lineUnless (m.h3Hi = 0) (.h3 m.h3Lo m.h3Hi) ++ lineUnless (m.h4Hi = 0) (.h4 m.h4Lo m.h4Hi) ++
  lineUnless (!m.hasHeaderProtection) (.headerProtectionKey m.headerProtectionKey)

-- The lines both ends of a cloaked tunnel must agree on.
def UapiLine.shared : UapiLine → Bool
  | .s1 _ => true
  | .s2 _ => true
  | .s3 _ => true
  | .s4 _ => true
  | .h1 _ _ => true
  | .h2 _ _ => true
  | .h3 _ _ => true
  | .h4 _ _ => true
  | .headerProtectionKey _ => true
  | _ => false

theorem lineUnless_filter_shared (line : UapiLine) (h : line.shared = true) (absent : Bool) :
    (lineUnless absent line).filter UapiLine.shared = lineUnless absent line := by
  cases absent <;> simp [lineUnless, h]

theorem lineUnless_filter_unshared (line : UapiLine) (h : line.shared = false) (absent : Bool) :
    (lineUnless absent line).filter UapiLine.shared = [] := by
  cases absent <;> simp [lineUnless, h]

theorem uapi_shared (p : ObfuscationProfile) (endpoint : AddrPort) :
    p.uapi.filter UapiLine.shared = cloakedParamsUAPI (p.toWireParams endpoint) := by
  delta ObfuscationProfile.uapi
  simp only [List.filter_append,
    lineUnless_filter_unshared (.jc p.jc) rfl, lineUnless_filter_unshared (.jmin p.jmin) rfl,
    lineUnless_filter_unshared (.jmax p.jmax) rfl, lineUnless_filter_unshared (.i 1 p.i1) rfl,
    lineUnless_filter_unshared (.i 2 p.i2) rfl, lineUnless_filter_unshared (.i 3 p.i3) rfl,
    lineUnless_filter_unshared (.i 4 p.i4) rfl, lineUnless_filter_unshared (.i 5 p.i5) rfl,
    lineUnless_filter_unshared
      (.contentPaddingAddition p.contentPaddingAdditionLo p.contentPaddingAdditionHi) rfl,
    lineUnless_filter_shared (.s1 p.s1) rfl, lineUnless_filter_shared (.s2 p.s2) rfl,
    lineUnless_filter_shared (.s3 p.s3) rfl, lineUnless_filter_shared (.s4 p.s4) rfl,
    lineUnless_filter_shared (.h1 p.h1Lo p.h1Hi) rfl,
    lineUnless_filter_shared (.h2 p.h2Lo p.h2Hi) rfl,
    lineUnless_filter_shared (.h3 p.h3Lo p.h3Hi) rfl,
    lineUnless_filter_shared (.h4 p.h4Lo p.h4Hi) rfl,
    lineUnless_filter_shared (.headerProtectionKey p.headerProtectionKey) rfl, List.nil_append,
    List.append_nil]
  rfl

end StarlingWg.Orchestrate
