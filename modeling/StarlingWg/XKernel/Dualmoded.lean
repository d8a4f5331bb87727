import StarlingWg.XKernel.Shared
import StarlingWg.Orchestrate.XMachine
import StarlingWg.Orchestrate.YSide

namespace StarlingWg.XKernel

open Control Interaction Orchestrate

-- The flags of amneziawg-dualmoded, with the private key and the peers
-- already parsed. A duration is in nanoseconds.
structure Flags where
  privkey : Key
  nativeIface : String
  cloakedIface : String
  controlListen : String
  publicHost : String
  probeA : Int
  probeB : Int
  nativePort : Int
  cloakedPort : Int
  awgBin : String
  jc : Int
  jmin : Int
  jmax : Int
  s1 : Int
  s2 : Int
  s3 : Int
  s4 : Int
  h1 : Int
  h2 : Int
  h3 : Int
  h4 : Int
  nativeTimeout : Int
  cloakedTimeout : Int
  peers : List PeerAuthorization

namespace Flags

def missing (f : Flags) : Bool :=
  f.controlListen = "" ∨ f.publicHost = "" ∨ f.probeA = 0 ∨ f.probeB = 0 ∨ f.nativePort = 0 ∨
    f.cloakedPort = 0 ∨ f.peers = []

def nativeDevice (f : Flags) : XKernel.Config :=
  ⟨f.nativeIface, f.privkey, .ofInt f.nativePort, 0, 0, 0, 0, 0, 0, 0, 0, 0, 0, 0,
    Orchestrate.Config.second, f.awgBin⟩

def cloakedDevice (f : Flags) : XKernel.Config :=
  ⟨f.cloakedIface, f.privkey, .ofInt f.cloakedPort, f.jc, f.jmin, f.jmax, f.s1, f.s2, f.s3, f.s4,
    f.h1, f.h2, f.h3, f.h4, 0, f.awgBin⟩

def noProfile : ObfuscationProfile :=
  ⟨0, 0, 0, 0, 0, 0, 0, 0, 0, 0, 0, 0, 0, 0, 0, false, 0, "", "", "", "", "", 0, 0⟩

-- Device() of a kernel device is nil.
def config (f : Flags) (publicKey : Key) : Orchestrate.Config where
  role := .x
  localPrivateKey := f.privkey
  localPublicKey := publicKey
  controlListenAddr := f.controlListen
  publicHost := f.publicHost
  probePortA := .ofInt f.probeA
  probePortB := .ofInt f.probeB
  nativeListenPort := .ofInt f.nativePort
  cloakedListenPort := .ofInt f.cloakedPort
  obfuscationProfile := noProfile
  authorizedPeers := f.peers
  hasNativeTUN := false
  hasCloakedTUN := false
  hasNativeDataPlane := true
  hasCloakedDataPlane := true
  nativeDevice := none
  cloakedDevice := none
  peers := []
  hasYTUN := false
  nativeHandshakeTimeout := f.nativeTimeout
  cloakedHandshakeTimeout := f.cloakedTimeout
  hasNetworkChange := false
  staleAfter := 0
  backgroundNativeRetryInterval := 0
  hasLogger := true

-- Up to NewOrchestrator, which gets the result. The public key is that of
-- the private key.
def main (f : Flags) (publicKey : Key) : Prog (Except String Orchestrate.Config) := do
  if f.missing then
    return .error ("amneziawg-dualmoded: -privkey, -control-listen, -public-host, -probe-a, " ++
      "-probe-b, -native-port, -cloaked-port, and at least one -peer are required")
  else
    match ← new f.nativeDevice with
    | .error err =>
      return .error
        ("amneziawg-dualmoded: bring up native interface " ++ f.nativeIface ++ ": " ++ err)
    | .ok nativeDev =>
      match ← new f.cloakedDevice with
      | .error err =>
        let _ ← close nativeDev
        return .error
          ("amneziawg-dualmoded: bring up cloaked interface " ++ f.cloakedIface ++ ": " ++ err)
      | .ok _ => return .ok (f.config publicKey)

end Flags

theorem main_configured (f : Flags) (publicKey : Key) (k : Kernel) :
    wp kernelMachine anySpec (f.main publicKey) (fun result k' => ∀ cfg, result = .ok cfg →
      cfg = f.config publicKey ∧ Configured f.cloakedDevice k') k := by
  unfold Flags.main
  split
  · simp
  · simp only [wp_bind]
    refine wp_mono (new_configured f.nativeDevice k) ?_
    rintro (err | nativeDev) k₁ -
    · simp
    · simp only [wp_bind]
      refine wp_mono (new_configured f.cloakedDevice k₁) ?_
      rintro (err | cloakedDev) k₂ hcloaked
      · simp [close, anySpec]
      · intro cfg hcfg
        exact ⟨(Except.ok.inj hcfg).symm, hcloaked cloakedDev rfl⟩

section

def announcement : Event Orchestrate.sig XLocal → Option CloakedParams
  | .act _ (.send _ (.cloakedParams p)) _ _ => some p
  | _ => none

def announceSpec (x : Orchestrate.Config) : Spec Orchestrate.sig XLocal where
  good l _ op reply l' := ∀ p, announcement (.act l op reply l') = some p →
    ∃ endpoint, p = x.obfuscationProfile.toWireParams endpoint
  pre
    | .serveX _ _ _ _, _ => True
    | .pollX _ _, _ => True
    | _, _ => False
  post _ _ _ _ := True

variable {x : Orchestrate.Config}

theorem silent {β : Type} {l l' : XLocal} {op : Orchestrate.Op β} {reply : β}
    (h : announcement (.act l op reply l') = none) : (announceSpec x).good l op reply l' := by
  intro p hp
  simp [h] at hp

theorem fallbackToCloaked_announces (c : ConnId) (sess : SessionKey) (remotePub : Key)
    (allowedIPs : List Prefix) (l : XLocal) :
    wp xMachine (announceSpec x) (fallbackToCloaked x c sess remotePub allowedIPs)
      (fun _ _ => True) l := by
  unfold fallbackToCloaked
  simp only [wp_bind, wp_x, xEvery]
  refine ⟨silent rfl, fun err => ⟨silent rfl, silent rfl, trivial⟩, silent rfl,
    fun err => ⟨silent rfl, silent rfl, trivial⟩, fun addr => ⟨silent rfl, ?_⟩⟩
  have hparams : ∀ {l reply l'}, (announceSpec x).good l (.send c (.cloakedParams
      (x.obfuscationProfile.toWireParams ⟨addr, x.cloakedListenPort⟩))) reply l' := by
    intro l reply l' p hp
    exact ⟨_, (Option.some.inj hp).symm⟩
  refine ⟨fun err => ⟨hparams, silent rfl, trivial⟩, hparams, silent rfl, fun start =>
    ⟨silent rfl, trivial, fun found l' _ => ?_⟩⟩
  cases found with
  | true => exact wp_x.mpr ⟨silent rfl, trivial⟩
  | false => exact wp_x.mpr ⟨silent rfl, trivial⟩

theorem serveReport_announces (c : ConnId) (sess : SessionKey) (remotePub : Key)
    (allowedIPs : List Prefix) (m : NativeEndpointReport) (l : XLocal) :
    wp xMachine (announceSpec x) (serveReport x c sess remotePub allowedIPs m)
      (fun _ _ => True) l := by
  unfold serveReport
  simp only [wp_bind, wp_x, xEvery]
  refine ⟨silent rfl, fun res => ⟨silent rfl, ?_⟩⟩
  split
  · simp only [wp_bind, wp_x, xEvery, wp_call]
    exact ⟨silent rfl, silent rfl, fun err => ⟨silent rfl, trivial, fun _ _ _ => trivial⟩,
      silent rfl, trivial, fun _ _ _ => trivial⟩
  · simp only [wp_bind, wp_x, xEvery]
    refine ⟨fun err => ⟨silent rfl, trivial⟩, silent rfl, ?_⟩
    exact wp_mono (fallbackToCloaked_announces c sess remotePub allowedIPs _)
      fun _ _ _ => ⟨trivial, fun _ _ _ => trivial⟩

theorem serveX_announces (c : ConnId) (sess : SessionKey) (remotePub : Key)
    (allowedIPs : List Prefix) (l : XLocal) :
    wp xMachine (announceSpec x) (serveX x c sess remotePub allowedIPs) (fun _ _ => True) l := by
  unfold serveX
  simp only [wp_bind, wp_x, xEvery]
  refine ⟨fun err => ⟨silent rfl, trivial⟩, fun msg => ⟨silent rfl, ?_⟩⟩
  cases msg with
  | nativeEndpointReport m => exact serveReport_announces c sess remotePub allowedIPs m _
  | modeDecision m =>
    dsimp only
    split
    · simp only [wp_bind, wp_call]
      exact wp_mono (fallbackToCloaked_announces c sess remotePub allowedIPs _)
        fun _ _ _ => ⟨trivial, fun _ _ _ => trivial⟩
    · exact ⟨trivial, fun _ _ _ => trivial⟩
  | ping nonce =>
    simp only [wp_bind, wp_x, xEvery, wp_call]
    exact ⟨fun err => ⟨silent rfl, trivial, fun _ _ _ => trivial⟩, silent rfl, trivial,
      fun _ _ _ => trivial⟩
  | bye reason => trivial
  | _ => exact ⟨trivial, fun _ _ _ => trivial⟩

theorem pollX_announces (remotePub : Key) (deadline : Int) (l : XLocal) :
    wp xMachine (announceSpec x) (pollX remotePub deadline) (fun _ _ => True) l := by
  unfold pollX
  simp only [wp_bind, wp_x, xEvery]
  refine fun t => ⟨silent rfl, ?_⟩
  split
  · simp only [wp_bind, wp_x, xEvery]
    refine fun time => ⟨silent rfl, ?_⟩
    split
    · trivial
    · simp only [wp_bind, wp_x, xEvery, wp_call]
      exact ⟨silent rfl, trivial, fun _ _ _ => trivial⟩
  · trivial

theorem announces_verified (y : Orchestrate.Config) :
    Verified (Orchestrate.bodies x y) xMachine (announceSpec x) := by
  intro β proc l hpre
  cases proc with
  | serveX c sess remotePub allowedIPs => exact serveX_announces c sess remotePub allowedIPs l
  | pollX remotePub deadline => exact pollX_announces remotePub deadline l
  | _ => exact hpre.elim

theorem acceptX_announces (c : ConnId) (l : XLocal) :
    wp xMachine (announceSpec x) (acceptX x c) (fun _ _ => True) l := by
  unfold acceptX handleXConn deferring
  simp only [wp_bind, wp_x, xEvery, wp_pure]
  refine fun auth => ⟨silent rfl, silent rfl, fun err => ⟨silent rfl, silent rfl, trivial⟩,
    silent rfl, fun err => ⟨silent rfl, silent rfl, trivial⟩, silent rfl, ?_⟩
  rintro (err | allowedIPs)
  · exact ⟨silent rfl, silent rfl, trivial⟩
  · exact ⟨silent rfl, trivial, fun _ _ _ => ⟨silent rfl, trivial⟩⟩

theorem announced_profile {y : Orchestrate.Config} {c : ConnId}
    {trace : List (Event Orchestrate.sig XLocal)} {l : XLocal}
    (hrun : Partial (Orchestrate.bodies x y) xMachine (acceptX x c) {} trace l)
    {event : Event Orchestrate.sig XLocal} (hevent : event ∈ trace) {p : CloakedParams}
    (hp : announcement event = some p) :
    ∃ endpoint, p = x.obfuscationProfile.toWireParams endpoint := by
  have hok := hrun.sound (announces_verified y) (acceptX_announces c {}) event hevent
  cases event with
  | act before op reply after => exact hok p hp
  | ret before proc result after => simp [announcement] at hp

end

-- A padding of zero is not given, nor is a header range that ends at zero.
def announced (v : UInt32) : Option String :=
  if v = 0 then none else some (toString v.toNat)

def announcedRange (lo hi : UInt32) : Option String :=
  if hi = 0 then none
  else if lo = hi then some (toString lo.toNat)
  else some (toString lo.toNat ++ "-" ++ toString hi.toNat)

def Kernel.Uses (k : Kernel) (iface : String) (p : CloakedParams) : Prop :=
  k.setting iface "s1" = announced p.s1 ∧ k.setting iface "s2" = announced p.s2 ∧
  k.setting iface "s3" = announced p.s3 ∧ k.setting iface "s4" = announced p.s4 ∧
  k.setting iface "h1" = announcedRange p.h1Lo p.h1Hi ∧
  k.setting iface "h2" = announcedRange p.h2Lo p.h2Hi ∧
  k.setting iface "h3" = announcedRange p.h3Lo p.h3Hi ∧
  k.setting iface "h4" = announcedRange p.h4Lo p.h4Hi

def Flags.Unobfuscated (f : Flags) : Prop :=
  f.s1 = 0 ∧ f.s2 = 0 ∧ f.s3 = 0 ∧ f.s4 = 0 ∧ f.h1 = 0 ∧ f.h2 = 0 ∧ f.h3 = 0 ∧ f.h4 = 0

theorem given_eq_none_iff (v : Int) : given v = none ↔ v = 0 := by
  simp [given]

theorem uses_noProfile_iff {f : Flags} {k : Kernel} (h : Configured f.cloakedDevice k)
    (endpoint : AddrPort) :
    k.Uses f.cloakedIface (Flags.noProfile.toWireParams endpoint) ↔ f.Unobfuscated := by
  have hsetting : ∀ flag v, (flag, v) ∈ f.cloakedDevice.shared →
      k.setting f.cloakedIface flag = given v := fun flag v hv => h.setting hv
  simp only [Config.shared, Flags.cloakedDevice, List.mem_cons] at hsetting
  simp only [Kernel.Uses, Flags.Unobfuscated]
  rw [hsetting "s1" f.s1 (by simp), hsetting "s2" f.s2 (by simp), hsetting "s3" f.s3 (by simp),
    hsetting "s4" f.s4 (by simp), hsetting "h1" f.h1 (by simp), hsetting "h2" f.h2 (by simp),
    hsetting "h3" f.h3 (by simp), hsetting "h4" f.h4 (by simp)]
  exact and_congr (given_eq_none_iff f.s1) (and_congr (given_eq_none_iff f.s2)
    (and_congr (given_eq_none_iff f.s3) (and_congr (given_eq_none_iff f.s4)
      (and_congr (given_eq_none_iff f.h1) (and_congr (given_eq_none_iff f.h2)
        (and_congr (given_eq_none_iff f.h3) (given_eq_none_iff f.h4)))))))

-- The flags reach the kernel, but not the announcement.
theorem announces_used_iff (f : Flags) (publicKey : Key) (y : Orchestrate.Config) (c : ConnId)
    {k k' : Kernel} {commands : List (Event sig Kernel)} {cfg : Orchestrate.Config}
    (hmain : Run bodies kernelMachine (f.main publicKey) k commands (.ok cfg) k')
    {trace : List (Event Orchestrate.sig XLocal)} {l : XLocal}
    (hrun : Partial (Orchestrate.bodies cfg y) xMachine (acceptX cfg c) {} trace l)
    {event : Event Orchestrate.sig XLocal} (hevent : event ∈ trace) {p : CloakedParams}
    (hp : announcement event = some p) :
    k'.Uses f.cloakedIface p ↔ f.Unobfuscated := by
  obtain ⟨rfl, hconfigured⟩ :=
    (hmain.sound any_verified (main_configured f publicKey k)).1 cfg rfl
  obtain ⟨endpoint, rfl⟩ := announced_profile hrun hevent hp
  exact uses_noProfile_iff hconfigured endpoint

-- Every command succeeds but the deletion of an interface that is not there,
-- and a Y asks for the cloaked mode.
def Kernel.willing (k : Kernel) : {β : Type} → Op β → Option β
  | _, .run command => some (if k.permits command then .ok () else .error "Cannot find device")
  | _, .writeTempKey _ => some (.ok "/tmp/xkernel-privkey-1")
  | _, .removeFile _ => some ()

def cloakedOnly (l : XLocal) : {β : Type} → Orchestrate.Op β → Option β
  | _, .accept _ => some ⟨4, []⟩
  | _, .send _ _ => some (.ok ())
  | _, .recv _ =>
    some (if l.received = [] then .ok (.modeDecision ⟨0, ModeCloaked, ""⟩) else .error "EOF")
  | _, .closeConn _ | _, .setState _ _ _ | _, .setDevice _ _ _ => some ()
  | _, .parsePrefixes _ => some (.ok [])
  | _, .resolvePublicHost _ => some (.ok (.v4 3405803777))
  | _, .cloakedAddPeer _ _ => some (.ok ())
  | _, .cloakedHandshakeTime _ => some (some 1)
  | _, .now => some 0
  | _, _ => none

def sampleFlags (s1 : Int) : Flags :=
  ⟨1, "awg-native0", "awg-cloaked0", "0.0.0.0:41820", "203.0.113.1", 41821, 41822, 51820, 51821,
    "awg", 0, 0, 0, s1, 0, 0, 0, 0, 0, 0, 0, 1000000000, 1000000000, [⟨4, []⟩]⟩

theorem sampleFlags_main (s1 : Int) (h : (replay bodies kernelMachine Kernel.willing 20
      ((sampleFlags s1).main 2) fun _ => none).any (fun r => r.2.1.isOk) = true) :
    ∃ commands k', Run bodies kernelMachine ((sampleFlags s1).main 2) (fun _ => none) commands
      (.ok ((sampleFlags s1).config 2)) k' := by
  obtain ⟨commands, result, k', hmain, hok⟩ := run_of_replay _ h
  cases result with
  | error err => simp [Except.isOk, Except.toBool] at hok
  | ok cfg =>
    obtain ⟨rfl, -⟩ := (hmain.sound any_verified (main_configured _ 2 _)).1 cfg rfl
    exact ⟨commands, k', hmain⟩

theorem sampleFlags_announces (s1 : Int)
    (h : (replay (Orchestrate.bodies ((sampleFlags s1).config 2) sampleY) xMachine cloakedOnly 40
      (acceptX ((sampleFlags s1).config 2) 0) {}).any
        (fun r => r.1.any fun event => (announcement event).isSome) = true) :
    ∃ trace l event p, Partial (Orchestrate.bodies ((sampleFlags s1).config 2) sampleY) xMachine
      (acceptX ((sampleFlags s1).config 2) 0) {} trace l ∧ event ∈ trace ∧
      announcement event = some p := by
  obtain ⟨trace, _, l, hrun, hany⟩ := run_of_replay _ h
  obtain ⟨event, hevent, hsome⟩ := List.any_eq_true.mp hany
  obtain ⟨p, hp⟩ := Option.isSome_iff_exists.mp hsome
  exact ⟨trace, l, event, p, hrun.stopped, hevent, hp⟩

theorem announces_used_iff_plain :
    ∃ (k' : Kernel) (trace : List (Event Orchestrate.sig XLocal)) (event : _) (p : CloakedParams),
      event ∈ trace ∧ announcement event = some p ∧ k'.Uses "awg-cloaked0" p := by
  obtain ⟨commands, k', hmain⟩ := sampleFlags_main 0 (by decide +kernel)
  obtain ⟨trace, l, event, p, hrun, hevent, hp⟩ := sampleFlags_announces 0 (by decide +kernel)
  refine ⟨k', trace, event, p, hevent, hp, ?_⟩
  exact (announces_used_iff (sampleFlags 0) 2 sampleY 0 hmain hrun hevent hp).mpr
    ⟨rfl, rfl, rfl, rfl, rfl, rfl, rfl, rfl⟩

theorem announces_zero_padding :
    ∃ commands k' trace l event p,
      Run bodies kernelMachine ((sampleFlags 15).main 2) (fun _ => none) commands
        (.ok ((sampleFlags 15).config 2)) k' ∧
      Partial (Orchestrate.bodies ((sampleFlags 15).config 2) sampleY) xMachine
        (acceptX ((sampleFlags 15).config 2) 0) {} trace l ∧
      event ∈ trace ∧ announcement event = some p ∧
      k'.setting "awg-cloaked0" "s1" = some "15" ∧ p.s1 = 0 ∧ ¬k'.Uses "awg-cloaked0" p := by
  obtain ⟨commands, k', hmain⟩ := sampleFlags_main 15 (by decide +kernel)
  obtain ⟨trace, l, event, p, hrun, hevent, hp⟩ := sampleFlags_announces 15 (by decide +kernel)
  obtain ⟨-, hconfigured⟩ := (hmain.sound any_verified (main_configured _ 2 _)).1 _ rfl
  obtain ⟨endpoint, rfl⟩ := announced_profile hrun hevent hp
  have hs1 : k'.setting "awg-cloaked0" "s1" = some "15" := hconfigured.setting (v := 15) (by decide)
  refine ⟨commands, k', trace, l, event, _, hmain, hrun, hevent, hp, hs1, rfl, ?_⟩
  rintro ⟨huses, -⟩
  rw [hs1] at huses
  cases huses

end StarlingWg.XKernel
