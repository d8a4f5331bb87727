import StarlingWg.NativeFlow.SharedDevice
import StarlingWg.Orchestrate.Config
import StarlingWg.Routing.Reference

namespace StarlingWg.XShared

open List Option
open Control (Key AddrPort)
open NativeFlow (PeerLine addPeerLines removePeerLines)
open Orchestrate (Config PeerAuthorization)
open Routing (AllowedIPs Reference Network Prefix)

-- A prefix as netip has it. One that is not valid has no text that
-- ParsePrefix accepts.
def written : Prefix → Control.Prefix
  | ⟨.ipv4, addr, bits, _⟩ => ⟨.v4 addr, bits⟩
  | ⟨.ipv6, addr, bits, _⟩ => ⟨.v6 addr "", bits⟩

def reparse : Control.Prefix → Option Prefix
  | ⟨.v4 addr, bits⟩ => if h : bits ≤ 32 then some ⟨.ipv4, addr, bits, h⟩ else none
  | ⟨.v6 addr zone, bits⟩ =>
    if h : zone = "" ∧ bits ≤ 128 then some ⟨.ipv6, addr, bits, h.2⟩ else none
  | ⟨.invalid, _⟩ => none

theorem reparse_written (pre : Prefix) : reparse (written pre) = some pre := by
  obtain ⟨family, addr, bits, valid⟩ := pre
  cases family with
  | ipv4 => exact dif_pos valid
  | ipv6 => exact dif_pos ⟨rfl, valid⟩

-- The peers of a device and the table that says which of them owns an
-- address. There is one Peer for each key at any time.
structure Device where
  peers : NativeFlow.Device
  allowedips : AllowedIPs Key

-- What a line does to the table, with the peer that is being configured. No
-- result where the line is rejected.
def updateTable (table : AllowedIPs Key) (peer : Option Key) : PeerLine → Option (AllowedIPs Key)
  | .remove => match peer with
    | none => some table
    | some pk => table.removeByPeer pk
  | .replaceAllowedIPs => match peer with
    | none => some table
    | some pk => table.removeByPeer pk
  | .allowedIP cidr => match reparse cidr, peer with
    | none, _ => none
    | some _, none => some table
    | some pre, some pk => table.insert pre pk
  | _ => some table

namespace Device

def ipcSetFrom (dev : Device) (peer : Option Key) : List PeerLine → Option Device
  | [] => some dev
  | line :: lines => do
      let table ← updateTable dev.allowedips peer line
      let (peers, peer) := dev.peers.handlePeerLine peer line
      ipcSetFrom ⟨peers, table⟩ peer lines

def ipcSet (dev : Device) (lines : List PeerLine) : Option Device :=
  dev.ipcSetFrom none lines

def new (publicKey : Key) : Device :=
  ⟨.fresh publicKey, {}⟩

end Device

section

-- netip.ParsePrefix.
variable (parsePrefix : String → Option Prefix)

def parsePrefixes (cidrs : List String) : Option (List Prefix) :=
  cidrs.mapM parsePrefix

-- The map startX builds: a later entry for a key replaces an earlier one.
def authorized (cfg : Config) (pk : Key) : Option PeerAuthorization :=
  cfg.authorizedPeers.reverse.find? fun p => p.publicKey = pk

def grants (cfg : Config) (pk : Key) : Option (List Prefix) :=
  (authorized cfg pk).bind fun auth => parsePrefixes parsePrefix auth.allowedIPs

inductive Call
  | addPeer (pk : Key) (endpoint : Option AddrPort)
  | removePeer (pk : Key)
  deriving DecidableEq, Repr

def Call.key : Call → Key
  | .addPeer pk _ => pk
  | .removePeer pk => pk

variable (persistentKeepalive : Int) (granted : Key → Option (List Prefix))

-- AddPeer gets the AllowedIPs of the authorization; without a valid one it
-- is not called.
def Call.lines : Call → List PeerLine
  | .addPeer pk endpoint => match granted pk with
    | none => []
    | some allowedIPs => addPeerLines persistentKeepalive pk endpoint (allowedIPs.map written)
  | .removePeer pk => removePeerLines pk

-- A call that fails has applied some of its lines.
def Device.call (dev : Device) (c : Call) (applied : Nat) : Option Device :=
  dev.ipcSet ((c.lines persistentKeepalive granted).take applied)

def Device.calls (dev : Device) (cs : List (Call × Nat)) : Option Device :=
  cs.foldlM (fun dev c => dev.call persistentKeepalive granted c.1 c.2) dev

def Isolated (dev dev' : Device) (pk : Key) : Prop :=
  ∀ q peer, q ≠ pk → dev.peers.peers q = some peer → dev'.peers.peers q = some peer ∧
    ∀ network, network ∈ dev'.allowedips.entriesForPeer q ↔ network ∈ dev.allowedips.entriesForPeer q

def Exclusive (own : Key) : Prop :=
  ∀ pk q ips ips', pk ≠ own → q ≠ own → pk ≠ q → granted pk = some ips → granted q = some ips' →
    ∀ pre ∈ ips, ∀ pre' ∈ ips', pre.masked ≠ pre'.masked

end

section

-- The same on the map from networks to their owners.
def updateReference (ref : Reference Key) (peer : Option Key) : PeerLine → Reference Key
  | .remove => peer.elim ref ref.removeByPeer
  | .replaceAllowedIPs => peer.elim ref ref.removeByPeer
  | .allowedIP cidr => (reparse cidr).elim ref fun pre => peer.elim ref (ref.insert pre)
  | _ => ref

def selected (own : Key) (peer : Option Key) : PeerLine → Option Key
  | .publicKey pk => if pk = own then none else some pk
  | .remove => none
  | .replaceAllowedIPs => peer
  | .endpoint _ => peer
  | .persistentKeepaliveInterval _ => peer
  | .allowedIP _ => peer

def referenceFrom (own : Key) (ref : Reference Key) (peer : Option Key) :
    List PeerLine → Reference Key
  | [] => ref
  | line :: lines =>
    referenceFrom own (updateReference ref peer line) (selected own peer line) lines

def Routable (line : PeerLine) : Prop :=
  ∀ cidr, line = .allowedIP cidr → (reparse cidr).isSome

variable {table : AllowedIPs Key} {ref : Reference Key} {line : PeerLine}

theorem selected_eq (dev : NativeFlow.Device) (peer : Option Key) (line : PeerLine) :
    (dev.handlePeerLine peer line).2 = selected dev.publicKey peer line := by
  cases line with
  | publicKey pk =>
    simp only [NativeFlow.Device.handlePeerLine, NativeFlow.Device.handlePublicKeyLine, selected]
    by_cases hpk : pk = dev.publicKey
    · rw [if_pos hpk, if_pos hpk]
    · rw [if_neg hpk, if_neg hpk]
  | _ => rfl

theorem updateTable_represents (h : table.Represents ref) (peer : Option Key)
    (hline : Routable line) :
    ∃ table', updateTable table peer line = some table' ∧
      table'.Represents (updateReference ref peer line) := by
  cases line with
  | remove =>
    cases peer with
    | none => exact ⟨table, rfl, h⟩
    | some pk => exact h.removeByPeer pk
  | replaceAllowedIPs =>
    cases peer with
    | none => exact ⟨table, rfl, h⟩
    | some pk => exact h.removeByPeer pk
  | allowedIP cidr =>
    obtain ⟨pre, hpre⟩ := isSome_iff_exists.mp (hline cidr rfl)
    simp only [updateTable, updateReference, hpre, elim_some]
    cases peer with
    | none => exact ⟨table, rfl, h⟩
    | some pk => exact h.insert pre pk
  | _ => exact ⟨table, rfl, h⟩

theorem ipcSetFrom_represents {lines : List PeerLine} (hlines : ∀ line ∈ lines, Routable line)
    (dev : Device) (h : dev.allowedips.Represents ref) (peer : Option Key) :
    ∃ dev', dev.ipcSetFrom peer lines = some dev' ∧
      dev'.peers = dev.peers.ipcSetFrom peer lines ∧
      dev'.allowedips.Represents (referenceFrom dev.peers.publicKey ref peer lines) := by
  induction lines generalizing dev ref peer with
  | nil => exact ⟨dev, rfl, rfl, h⟩
  | cons line lines ih =>
    obtain ⟨table, htable, hrep⟩ :=
      updateTable_represents h peer (hlines line mem_cons_self)
    obtain ⟨dev', hrun, hpeers, hrep'⟩ := ih (fun l hl => hlines l (mem_cons_of_mem _ hl))
      ⟨(dev.peers.handlePeerLine peer line).1, table⟩ hrep (dev.peers.handlePeerLine peer line).2
    refine ⟨dev', ?_, hpeers, ?_⟩
    · simpa [Device.ipcSetFrom, htable] using hrun
    · rw [selected_eq, NativeFlow.Device.handlePeerLine_publicKey] at hrep'
      exact hrep'

end

section

variable {granted : Key → Option (List Prefix)} {own pk : Key} {ref : Reference Key}

def Rightful (granted : Key → Option (List Prefix)) (own : Key) (ref : Reference Key) : Prop :=
  ∀ network q, ref network = some q → q ≠ own ∧ ∃ ips, granted q = some ips ∧
    ∃ pre ∈ ips, pre.masked = network

def Permitted (granted : Key → Option (List Prefix)) (pk : Key) : PeerLine → Prop
  | .publicKey key => key = pk
  | .allowedIP cidr => ∃ pre ips, reparse cidr = some pre ∧ granted pk = some ips ∧ pre ∈ ips
  | _ => True

theorem Permitted.routable {line : PeerLine} (h : Permitted granted pk line) : Routable line := by
  rintro cidr rfl
  obtain ⟨pre, -, hpre, -⟩ := h
  simp [hpre]

theorem Permitted.names {line : PeerLine} (h : Permitted granted pk line) : line.Names pk := by
  cases line with
  | publicKey key => exact h
  | _ => trivial

theorem lines_permitted (persistentKeepalive : Int) (c : Call) :
    ∀ line ∈ c.lines persistentKeepalive granted, Permitted granted c.key line := by
  intro line hl
  cases c with
  | removePeer pk =>
    cases line with
    | publicKey key => exact NativeFlow.removePeerLines_names _ hl
    | allowedIP cidr => simp [Call.lines, removePeerLines] at hl
    | _ => trivial
  | addPeer pk endpoint =>
    simp only [Call.lines] at hl
    split at hl
    · simp at hl
    · next ips hips =>
        cases line with
        | publicKey key => exact NativeFlow.addPeerLines_names _ hl
        | allowedIP cidr =>
          have hcidr : cidr ∈ ips.map written := by
            cases endpoint <;> simp [addPeerLines] at hl ⊢ <;> exact hl
          obtain ⟨pre, hpre, rfl⟩ := mem_map.mp hcidr
          exact ⟨pre, ips, reparse_written pre, hips, hpre⟩
        | _ => trivial

theorem removeByPeer_eq_some {q : Key} {network : Network} :
    ref.removeByPeer pk network = some q ↔ ref network = some q ∧ q ≠ pk := by
  unfold Reference.removeByPeer
  split
  · next hpk =>
      rw [hpk]
      refine ⟨fun h => absurd h (by simp), ?_⟩
      rintro ⟨hq, hne⟩
      exact absurd (Option.some.inj hq).symm hne
  · next hpk =>
      refine ⟨fun hq => ⟨hq, ?_⟩, fun h => h.1⟩
      rintro rfl
      exact hpk hq

theorem insert_eq_some {pre : Prefix} {key q : Key} {network : Network} :
    ref.insert pre key network = some q ↔
      (network = pre.masked ∧ q = key) ∨ (network ≠ pre.masked ∧ ref network = some q) := by
  by_cases hnet : network = pre.masked
  · simp [Reference.insert, hnet, eq_comm]
  · simp [Reference.insert, hnet]

theorem Rightful.removeByPeer (hright : Rightful granted own ref) :
    Rightful granted own (ref.removeByPeer pk) :=
  fun network q hq => hright network q (removeByPeer_eq_some.mp hq).1

theorem removeByPeer_others {q : Key} (hne : q ≠ pk) (network : Network) :
    ref.removeByPeer pk network = some q ↔ ref network = some q :=
  removeByPeer_eq_some.trans ⟨fun h => h.1, fun h => ⟨h, hne⟩⟩

section

variable {pre : Prefix} {ips : List Prefix}

theorem Rightful.insert (hright : Rightful granted own ref) (hown : pk ≠ own)
    (hips : granted pk = some ips) (hmem : pre ∈ ips) :
    Rightful granted own (ref.insert pre pk) := by
  intro network q hq
  rcases insert_eq_some.mp hq with ⟨rfl, rfl⟩ | ⟨-, hq⟩
  · exact ⟨hown, ips, hips, pre, hmem, rfl⟩
  · exact hright network q hq

theorem insert_others (hexcl : Exclusive granted own) (hright : Rightful granted own ref)
    (hown : pk ≠ own) (hips : granted pk = some ips) (hmem : pre ∈ ips) {q : Key} (hne : q ≠ pk)
    (network : Network) :
    ref.insert pre pk network = some q ↔ ref network = some q := by
  rw [insert_eq_some]
  constructor
  · rintro (⟨-, hq⟩ | ⟨-, hq⟩)
    · exact absurd hq hne
    · exact hq
  · intro hq
    refine Or.inr ⟨?_, hq⟩
    -- otherwise the network would be granted to both
    rintro rfl
    obtain ⟨hqown, ips', hips', pre', hmem', hmasked⟩ := hright _ q hq
    exact hexcl pk q ips ips' hown hqown hne.symm hips hips' pre hmem pre' hmem' hmasked.symm

end

theorem updateReference_rightful (hexcl : Exclusive granted own) (hright : Rightful granted own ref)
    {line : PeerLine} (hline : Permitted granted pk line) {peer : Option Key}
    (hpeer : ∀ key, peer = some key → key = pk ∧ key ≠ own) :
    Rightful granted own (updateReference ref peer line) ∧
      ∀ q ≠ pk, ∀ network,
        updateReference ref peer line network = some q ↔ ref network = some q := by
  have hsame : Rightful granted own ref ∧ ∀ q ≠ pk, ∀ network, ref network = some q ↔
      ref network = some q := ⟨hright, fun _ _ _ => Iff.rfl⟩
  cases peer with
  | none =>
    cases line with
    | allowedIP cidr =>
      obtain ⟨pre, ips, hpre, -⟩ := hline
      simpa only [updateReference, hpre, elim_some, elim_none] using hsame
    | _ => exact hsame
  | some key =>
    obtain ⟨rfl, hown⟩ := hpeer key rfl
    cases line with
    | remove => exact ⟨hright.removeByPeer, fun _ hne => removeByPeer_others hne⟩
    | replaceAllowedIPs => exact ⟨hright.removeByPeer, fun _ hne => removeByPeer_others hne⟩
    | allowedIP cidr =>
      obtain ⟨pre, ips, hpre, hips, hmem⟩ := hline
      simp only [updateReference, hpre, elim_some]
      exact ⟨hright.insert hown hips hmem,
        fun _ hne => insert_others hexcl hright hown hips hmem hne⟩
    | _ => exact hsame

theorem referenceFrom_rightful (hexcl : Exclusive granted own) {lines : List PeerLine}
    (hlines : ∀ line ∈ lines, Permitted granted pk line) (hright : Rightful granted own ref)
    {peer : Option Key} (hpeer : ∀ key, peer = some key → key = pk ∧ key ≠ own) :
    Rightful granted own (referenceFrom own ref peer lines) ∧
      ∀ q ≠ pk, ∀ network, referenceFrom own ref peer lines network = some q ↔
        ref network = some q := by
  induction lines generalizing ref peer with
  | nil => exact ⟨hright, fun _ _ _ => Iff.rfl⟩
  | cons line lines ih =>
    have hline := hlines line mem_cons_self
    obtain ⟨hright', hother⟩ := updateReference_rightful hexcl hright hline hpeer
    have hselected : ∀ key, selected own peer line = some key → key = pk ∧ key ≠ own := by
      intro key hkey
      cases line with
      | publicKey k =>
        simp only [selected] at hkey
        split at hkey
        · simp at hkey
        · next hown =>
            cases hkey
            exact ⟨hline, hown⟩
      | remove => simp [selected] at hkey
      | _ => exact hpeer key hkey
    obtain ⟨hright'', hother'⟩ :=
      ih (fun l hl => hlines l (mem_cons_of_mem _ hl)) hright' hselected
    exact ⟨hright'', fun q hne network => (hother' q hne network).trans (hother q hne network)⟩

end

section

variable {persistentKeepalive : Int} {granted : Key → Option (List Prefix)} {own : Key}
  {ref : Reference Key} {dev : Device}

structure Holds (own : Key) (dev : Device) (ref : Reference Key) : Prop where
  publicKey : dev.peers.publicKey = own
  represents : dev.allowedips.Represents ref

theorem Device.new_holds (own : Key) : Holds own (Device.new own) fun _ => none :=
  ⟨rfl, Routing.AllowedIPs.represents_empty⟩

theorem Holds.call (h : Holds own dev ref) (persistentKeepalive : Int)
    (granted : Key → Option (List Prefix)) (c : Call) (applied : Nat) :
    ∃ dev', dev.call persistentKeepalive granted c applied = some dev' ∧
      dev'.peers = dev.peers.ipcSet ((c.lines persistentKeepalive granted).take applied) ∧
      Holds own dev' (referenceFrom own ref none
        ((c.lines persistentKeepalive granted).take applied)) := by
  have hroutable : ∀ line ∈ (c.lines persistentKeepalive granted).take applied, Routable line :=
    fun line hl => (lines_permitted persistentKeepalive c line (mem_of_mem_take hl)).routable
  obtain ⟨dev', hrun, hpeers, hrep⟩ := ipcSetFrom_represents hroutable dev h.represents none
  rw [h.publicKey] at hrep
  refine ⟨dev', hrun, hpeers, ?_, hrep⟩
  rw [hpeers, NativeFlow.Device.ipcSetFrom_publicKey, h.publicKey]

theorem call_rightful (hexcl : Exclusive granted own) (hright : Rightful granted own ref) (c : Call)
    (applied : Nat) :
    Rightful granted own
        (referenceFrom own ref none ((c.lines persistentKeepalive granted).take applied)) ∧
      ∀ q ≠ c.key, ∀ network,
        referenceFrom own ref none ((c.lines persistentKeepalive granted).take applied) network =
          some q ↔ ref network = some q :=
  referenceFrom_rightful hexcl
    (fun line hl => lines_permitted persistentKeepalive c line (mem_of_mem_take hl)) hright
    (by simp)

theorem calls_rightful (hexcl : Exclusive granted own) (cs : List (Call × Nat))
    (h : Holds own dev ref) (hright : Rightful granted own ref) :
    ∃ dev' ref', dev.calls persistentKeepalive granted cs = some dev' ∧
      Holds own dev' ref' ∧ Rightful granted own ref' := by
  induction cs generalizing dev ref with
  | nil => exact ⟨dev, ref, rfl, h, hright⟩
  | cons c cs ih =>
    obtain ⟨dev₁, hcall, -, h₁⟩ := h.call persistentKeepalive granted c.1 c.2
    obtain ⟨dev', ref', hrun, h', hright'⟩ := ih h₁ (call_rightful hexcl hright c.1 c.2).1
    exact ⟨dev', ref', by simpa [Device.calls, hcall] using hrun, h', hright'⟩

theorem Holds.isolated (h : Holds own dev ref) (hexcl : Exclusive granted own)
    (hright : Rightful granted own ref) (c : Call) (applied : Nat) :
    ∃ dev', dev.call persistentKeepalive granted c applied = some dev' ∧
      Isolated dev dev' c.key := by
  obtain ⟨dev', hcall, hpeers, h'⟩ := h.call persistentKeepalive granted c applied
  refine ⟨dev', hcall, fun q peer hne hpeer => ⟨?_, fun network => ?_⟩⟩
  · rw [hpeers, NativeFlow.Device.ipcSet, NativeFlow.Device.ipcSetFrom_frame hne _ ?_ _ _ (by simp)]
    · exact hpeer
    · exact fun line hl =>
        (lines_permitted persistentKeepalive c line (mem_of_mem_take hl)).names
  · rw [h'.represents.mem_entriesForPeer, h.represents.mem_entriesForPeer]
    exact (call_rightful hexcl hright c applied).2 q hne network

end

section

variable {own pk : Key} {ref : Reference Key}

theorem referenceFrom_allowedIPs (ips : List Prefix) :
    referenceFrom own ref (some pk) ((ips.map written).map PeerLine.allowedIP) =
      ips.foldl (fun ref pre => ref.insert pre pk) ref := by
  induction ips generalizing ref with
  | nil => rfl
  | cons pre ips ih =>
    simp only [map_cons, referenceFrom, updateReference, reparse_written, elim_some,
      selected, foldl_cons]
    exact ih

theorem foldl_insert_owned {network : Network} (ips : List Prefix)
    (h : ref network = some pk ∨ ∃ pre ∈ ips, pre.masked = network) :
    ips.foldl (fun ref pre => ref.insert pre pk) ref network = some pk := by
  induction ips generalizing ref with
  | nil => simpa using h
  | cons pre ips ih =>
    refine ih ?_
    by_cases hnet : network = pre.masked
    · exact .inl (by simp [Reference.insert, hnet])
    · rcases h with h | ⟨pre', hmem, hmasked⟩
      · exact .inl (by simpa [Reference.insert, hnet] using h)
      · rcases mem_cons.mp hmem with rfl | hmem
        · exact absurd hmasked.symm hnet
        · exact .inr ⟨pre', hmem, hmasked⟩

theorem addPeer_owns {persistentKeepalive : Int} (hown : pk ≠ own) (addr : AddrPort)
    {ips : List Prefix} {pre : Prefix} (hpre : pre ∈ ips) :
    referenceFrom own ref none (addPeerLines persistentKeepalive pk (some addr) (ips.map written))
      pre.masked = some pk := by
  have hlines : referenceFrom own ref none
      (addPeerLines persistentKeepalive pk (some addr) (ips.map written)) =
      referenceFrom own (ref.removeByPeer pk) (some pk)
        ((ips.map written).map PeerLine.allowedIP) := by
    by_cases hka : 0 < persistentKeepalive
    · simp [addPeerLines, hka, referenceFrom, updateReference, selected, hown]
    · simp [addPeerLines, hka, referenceFrom, updateReference, selected, hown]
  rw [hlines, referenceFrom_allowedIPs]
  exact foldl_insert_owned ips (.inr ⟨pre, hpre, rfl⟩)

theorem Holds.addPeer {dev : Device} (h : Holds own dev ref) (persistentKeepalive : Int)
    {granted : Key → Option (List Prefix)} (hpk : pk ≠ own) (addr : AddrPort) {ips : List Prefix}
    (hips : granted pk = some ips) :
    ∃ applied dev' ref' peer,
      dev.call persistentKeepalive granted (.addPeer pk (some addr)) applied = some dev' ∧
      Holds own dev' ref' ∧ dev'.peers.peers pk = some peer ∧
      ∀ pre ∈ ips, ref' pre.masked = some pk := by
  have hlines : (Call.addPeer pk (some addr)).lines persistentKeepalive granted =
      addPeerLines persistentKeepalive pk (some addr) (ips.map written) := by
    simp [Call.lines, hips]
  obtain ⟨dev', hcall, hpeers, h'⟩ := h.call persistentKeepalive granted (.addPeer pk (some addr))
    ((Call.addPeer pk (some addr)).lines persistentKeepalive granted).length
  rw [take_length, hlines] at hpeers h'
  have hpk' : pk ≠ dev.peers.publicKey := h.publicKey ▸ hpk
  obtain ⟨peer, hpeer, -⟩ :=
    dev.peers.addPeer_dials hpk' persistentKeepalive addr (ips.map written)
  exact ⟨_, dev', _, peer, hcall, h', hpeers ▸ hpeer, fun pre hpre => addPeer_owns hpk addr hpre⟩

end

-- A network granted twice moves to the peer added last.
theorem calls_isolated_iff (parsePrefix : String → Option Prefix) (cfg : Config)
    (persistentKeepalive : Int) (own : Key) :
    (∀ cs, ∃ dev,
      (Device.new own).calls persistentKeepalive (grants parsePrefix cfg) cs = some dev ∧
      ∀ c applied, ∃ dev', dev.call persistentKeepalive (grants parsePrefix cfg) c applied =
        some dev' ∧ Isolated dev dev' c.key) ↔
    Exclusive (grants parsePrefix cfg) own := by
  generalize grants parsePrefix cfg = granted
  constructor
  · intro hall pk q ips ips' hpk hq hne hips hips' pre hpre pre' hpre' hmasked
    -- AddPeer for q, then for pk, which takes the network away from q
    obtain ⟨applied, dev₁, ref₁, peer, hcall₁, h₁, hpeer, howns₁⟩ :=
      (Device.new_holds own).addPeer persistentKeepalive hq ⟨.invalid, 0⟩ hips'
    obtain ⟨applied', dev₂, ref₂, -, hcall₂, h₂, -, howns₂⟩ :=
      h₁.addPeer persistentKeepalive hpk ⟨.invalid, 0⟩ hips
    obtain ⟨dev, hrun, hcalls⟩ := hall [(.addPeer q (some ⟨.invalid, 0⟩), applied)]
    obtain rfl : dev₁ = dev := by simpa [Device.calls, hcall₁] using hrun
    obtain ⟨dev', hcall', hiso⟩ := hcalls (.addPeer pk (some ⟨.invalid, 0⟩)) applied'
    obtain rfl : dev₂ = dev' := Option.some.inj (hcall₂.symm.trans hcall')
    have hkept := (hiso q peer hne.symm hpeer).2 pre.masked
    rw [h₂.represents.mem_entriesForPeer, h₁.represents.mem_entriesForPeer] at hkept
    have hlost : ref₂ pre.masked = some q := hkept.mpr (hmasked ▸ howns₁ pre' hpre')
    exact hne (Option.some.inj ((howns₂ pre hpre).symm.trans hlost))
  · intro hexcl cs
    have hright : Rightful granted own fun _ => none := by
      intro network q hq
      simp at hq
    obtain ⟨dev, ref, hrun, h, hright'⟩ := calls_rightful hexcl cs (Device.new_holds own) hright
    exact ⟨dev, hrun, fun c applied => h.isolated hexcl hright' c applied⟩

def samplePrefix : String → Option Prefix
  | "10.0.0.0/24" => some ⟨.ipv4, 0x0a000000#32, 24, by decide⟩
  | "10.0.0.7/24" => some ⟨.ipv4, 0x0a000007#32, 24, by decide⟩
  | _ => none

def overlappingX : Config :=
  { Orchestrate.sampleX with
    authorizedPeers := [⟨4, ["10.0.0.0/24"]⟩, ⟨5, ["10.0.0.7/24"]⟩] }

theorem network_taken_over : overlappingX.validate = .ok () ∧ ∃ dev dev',
      (Device.new 2).calls 0 (grants samplePrefix overlappingX) [(.addPeer 4 none, 3)] = some dev ∧
      dev.call 0 (grants samplePrefix overlappingX) (.addPeer 5 none) 3 = some dev' ∧
      (dev'.peers.peers 4).isSome = true ∧
      dev.allowedips.entriesForPeer 4 = [⟨.ipv4, 0x0a000000#32, 24⟩] ∧
      dev'.allowedips.entriesForPeer 4 = [] := by
  refine ⟨rfl, ?_⟩
  have hrun : ((Device.new 2).calls 0 (grants samplePrefix overlappingX)
      [(.addPeer 4 none, 3)]).any (fun dev =>
        decide (dev.allowedips.entriesForPeer 4 = [⟨.ipv4, 0x0a000000#32, 24⟩]) &&
        (dev.call 0 (grants samplePrefix overlappingX) (.addPeer 5 none) 3).any fun dev' =>
          (dev'.peers.peers 4).isSome && decide (dev'.allowedips.entriesForPeer 4 = [])) = true := by
    decide +kernel
  obtain ⟨dev, hdev, hcall⟩ := (any_eq_true _ _).mp hrun
  obtain ⟨hbefore, hcall⟩ := Bool.and_eq_true_iff.mp hcall
  obtain ⟨dev', hdev', hafter⟩ := (any_eq_true _ _).mp hcall
  obtain ⟨hpeer, hentries⟩ := Bool.and_eq_true_iff.mp hafter
  exact ⟨dev, dev', hdev, hdev', hpeer, of_decide_eq_true hbefore, of_decide_eq_true hentries⟩

end StarlingWg.XShared
