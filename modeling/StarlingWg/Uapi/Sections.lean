import StarlingWg.Uapi.RoundTrip

namespace StarlingWg.Uapi

open List Option
open StarlingWg.Device (Settings IpcSetDevice IpcError)

inductive PeerAction
  | start (peer : PeerId)
  | sendKeepalive (peer : PeerId)
  | sendStagedPackets (peer : PeerId)
  deriving DecidableEq

namespace Device

variable {E : Type} (p : Platform E)

def postActions (d : Device E) : Option IpcSetPeer → List PeerAction
  | none => []
  | some peer =>
    if peer.dummy then []
    else if d.state = .up then
      .start peer.peer :: (if peer.pkaOn then [.sendKeepalive peer.peer] else []) ++
        [.sendStagedPackets peer.peer]
    else []

def finishActions (d : Device E) (staged : IpcSetDevice) (peer : Option IpcSetPeer) : List PeerAction :=
  match staged.mergeWithDevice d.settings with
  | (_, .error _) => []
  | (_, .ok _) => d.postActions peer

def lineKey (line : Line) : Option String :=
  (Device.cut line.text).map fun entry => String.ofList entry.1

-- A public key line ends the section before it.
def lineActions (d : Device E) (peer : Option IpcSetPeer) (line : Line) : List PeerAction :=
  if lineKey line = some "public_key" then d.postActions peer else []

def ipcSetActions (d : Device E) (staged : IpcSetDevice) (peer : Option IpcSetPeer) :
    List Line → List PeerAction
  | [] => d.finishActions staged peer
  | line :: lines =>
    if line.text = [] then d.finishActions staged peer
    else d.lineActions peer line ++
      match d.lineStep p staged peer line with
      | .inr _ => []
      | .inl (d, staged, peer) => ipcSetActions d staged peer lines

def actions (d : Device E) (lines : List Line) : List PeerAction :=
  d.ipcSetActions p (.fromDevice d.settings) none lines

abbrev SetsInterval (line : Line) : Prop :=
  lineKey line = some "persistent_keepalive_interval"

-- The last line of a text about the interval of a peer changes it from zero.
inductive TurnsOnKeepalive (staged : IpcSetDevice) : Device E → Option IpcSetPeer → List Line → Prop
  | here {d d' : Device E} {q next : IpcSetPeer} {line : Line} {lines : List Line}
      (hkey : SetsInterval line) (hline : d.lineStep p staged (some q) line = .inl (d', staged, some next))
      (hold : (d.peers q.peer).persistentKeepaliveInterval = ⟨0, 0⟩)
      (hnew : (d'.peers q.peer).persistentKeepaliveInterval ≠ ⟨0, 0⟩)
      (hlast : ∀ line ∈ lines, ¬SetsInterval line) : TurnsOnKeepalive staged d (some q) (line :: lines)
  | there {d d' : Device E} {peer : Option IpcSetPeer} {next : IpcSetPeer} {line : Line}
      {lines : List Line} (hline : d.lineStep p staged peer line = .inl (d', staged, some next))
      (h : TurnsOnKeepalive staged d' (some next) lines) : TurnsOnKeepalive staged d peer (line :: lines)

-- The lines that follow a section.
def SectionEnds : List Line → Prop
  | [] => True
  | line :: _ => line.text = [] ∨ lineKey line = some "public_key"

-- The sections before the first one with an interval line cause no action.
def QuietUntilInterval (actions : List Line → List PeerAction) (lines : List Line) : Prop :=
  ∀ front back, lines = front ++ back → (∀ line ∈ front, line.text ≠ [] ∧ ¬SetsInterval line) →
    SectionEnds back → actions front = []

theorem quietUntilInterval_nil {actions : List Line → List PeerAction} :
    QuietUntilInterval actions [] ↔ actions [] = [] := by
  simp only [QuietUntilInterval, nil_eq_append_iff]
  constructor
  · exact fun h => h [] [] ⟨rfl, rfl⟩ (by simp) trivial
  · rintro h _ _ ⟨rfl, rfl⟩ - -
    exact h

theorem quietUntilInterval_cons {actions : List Line → List PeerAction} {line : Line}
    {lines : List Line} : QuietUntilInterval actions (line :: lines) ↔
      (SectionEnds (line :: lines) → actions [] = []) ∧ (line.text ≠ [] → ¬SetsInterval line →
        QuietUntilInterval (fun front => actions (line :: front)) lines) := by
  constructor
  · intro h
    refine ⟨h [] _ rfl (by simp), fun hblank hkey front back heq hfront => ?_⟩
    exact h (line :: front) back (congrArg _ heq) (forall_mem_cons.mpr ⟨⟨hblank, hkey⟩, hfront⟩)
  · rintro ⟨hnil, hcons⟩ front back heq hfront hends
    cases front with
    | nil => exact hnil (heq ▸ hends)
    | cons l front =>
      obtain ⟨rfl, rfl⟩ := List.cons.inj heq
      obtain ⟨⟨hblank, hkey⟩, hrest⟩ := forall_mem_cons.mp hfront
      exact hcons hblank hkey front back rfl hrest hends

section

variable {p} {d d' : Device E} {staged : IpcSetDevice} {peer : Option IpcSetPeer} {line : Line}
  {lines : List Line} {next : IpcSetPeer} {readError : Bool}

-- A line is about a peer: it opens a section, or there is one.
def AboutPeer (peer : Option IpcSetPeer) (line : Line) : Prop :=
  line.text ≠ [] ∧ (peer.isSome ∨ lineKey line = some "public_key")

@[simp] theorem handlePostConfig_settings : (d.handlePostConfig peer).settings = d.settings :=
  Harmless.handlePostConfig (R := fun d d' => d'.settings = d.settings)
    ⟨fun _ => rfl, fun h h' => h'.trans h, fun _ _ _ _ => rfl, fun _ _ _ _ => rfl⟩ d peer

theorem handlePeerLine_settings {q : IpcSetPeer} {key : String} {value : List Char} :
    (d.handlePeerLine p q key value).1.1.settings = d.settings := by
  have hremove : ∀ key, (d.removePeer key).settings = d.settings := fun key =>
    (Quiet.removePeer (p := p) d key).settings
  unfold handlePeerLine
  split
  · split
    · rfl
    split
    · exact hremove _
    · rfl
  · split
    · rfl
    split
    · rfl
    · exact hremove _
  iterate 3 split <;> rfl
  · split
    · rfl
    split <;> rfl
  · dsimp only
    split
    · rfl
    split
    · rfl
    split <;> rfl
  · split <;> rfl
  · rfl

theorem lineStep_about (ha : AboutPeer peer line) {result : Device E × IpcSetDevice × Option IpcSetPeer}
    (h : d.lineStep p staged peer line = .inl result) :
    result.1.settings = d.settings ∧ ∃ next, result.2 = (staged, some next) := by
  have hpublic : ∀ value, ((d.handlePostConfig peer).handlePublicKeyLine p peer value).1.settings =
      d.settings := fun value =>
    (Quiet.handlePublicKeyLine _ _ value).settings.trans handlePostConfig_settings
  have hpeer : ∀ q key value, (d.handlePeerLine p q key value).1.1.settings = d.settings :=
    fun _ _ _ => handlePeerLine_settings
  unfold lineStep at h
  rw [if_neg ha.1] at h
  split at h
  · cases h
  next hcut =>
  split at h
  · split at h
    · cases h
    next heq =>
      cases h
      exact ⟨(congrArg (fun r => r.1.settings) heq).symm.trans (hpublic _), _, rfl⟩
  next hkey =>
  split at h
  · have hline := ha.2.resolve_left nofun
    rw [lineKey, hcut] at hline
    exact absurd (Option.some.inj hline) hkey
  · split at h
    · cases h
    next heq =>
      cases h
      exact ⟨(congrArg (fun r => r.1.1.settings) heq).symm.trans (hpeer _ _ _), _, rfl⟩

theorem ipcSetLines_step (h : d.lineStep p staged peer line = .inl (d', staged, some next)) :
    ipcSetLines p readError d staged peer (line :: lines) =
      ipcSetLines p readError d' staged (some next) lines := by
  rw [ipcSetLines, h]

theorem ipcSetActions_step (lines : List Line) (hblank : line.text ≠ [])
    (h : d.lineStep p staged peer line = .inl (d', staged, some next)) :
    d.ipcSetActions p staged peer (line :: lines) =
      d.lineActions peer line ++ d'.ipcSetActions p staged (some next) lines := by
  rw [ipcSetActions, if_neg hblank, h]

theorem lineStep_of_success (ha : AboutPeer peer line)
    (h : (ipcSetLines p readError d staged peer (line :: lines)).2 = none) :
    ∃ d' next, d.lineStep p staged peer line = .inl (d', staged, some next) ∧
      d'.settings = d.settings ∧ (ipcSetLines p readError d' staged (some next) lines).2 = none := by
  rw [ipcSetLines] at h
  cases hline : d.lineStep p staged peer line with
  | inr result =>
    rw [hline] at h
    exact absurd h (lineStep_error ha.1 hline)
  | inl result =>
    rw [hline] at h
    obtain ⟨d', rest⟩ := result
    obtain ⟨hsettings, next, hrest⟩ := lineStep_about ha hline
    dsimp only at hrest
    subst hrest
    exact ⟨d', next, rfl, hsettings, h⟩

theorem merge_own (s : Settings) : ((IpcSetDevice.fromDevice s).mergeWithDevice s).1 = s := by
  unfold IpcSetDevice.mergeWithDevice
  split
  · rfl
  · dsimp only
    split <;> rfl

theorem handlePublicKeyLine_flag (last : Option IpcSetPeer) (value : List Char) :
    d.handlePublicKeyLine p last value =
      ((d.handlePublicKeyLine p none value).1, (d.handlePublicKeyLine p none value).2.map fun next =>
        { next with pkaOn := last.elim false IpcSetPeer.pkaOn }) := by
  unfold handlePublicKeyLine
  split
  · rfl
  split
  · rfl
  split
  · rfl
  split <;> rfl

theorem handlePeerLine_flag (q : IpcSetPeer) (b : Bool) (key : String) (value : List Char) :
    d.handlePeerLine p { q with pkaOn := b } key value =
      (((d.handlePeerLine p q key value).1.1, { (d.handlePeerLine p q key value).1.2 with
        pkaOn := if key = "persistent_keepalive_interval" ∧ (d.handlePeerLine p q key value).2 = none
          then (d.handlePeerLine p q key value).1.2.pkaOn else b }),
        (d.handlePeerLine p q key value).2) := by
  unfold handlePeerLine
  split
  · split
    · rfl
    split <;> rfl
  · split
    · rfl
    split <;> rfl
  iterate 3 split <;> rfl
  · split
    · rfl
    split <;> rfl
  · split
    split
    · rfl
    split
    · rfl
    split <;> rfl
  · split <;> rfl
  · simp

theorem text_ne_nil_of_lineKey {key : String} (h : lineKey line = some key) : line.text ≠ [] := by
  intro hnil
  rw [lineKey, hnil] at h
  cases h

-- The section that a line opens starts with the flag of the one before.
theorem lineStep_public (hkey : lineKey line = some "public_key") :
    d.lineStep p staged peer line = .inl (d', staged, some next) ↔
      (d.handlePostConfig peer).lineStep p staged none line =
        .inl (d', staged, some { next with pkaOn := false }) ∧
      next.pkaOn = peer.elim false IpcSetPeer.pkaOn := by
  obtain ⟨entry, hcut, hpublic⟩ := map_eq_some_iff.mp hkey
  have hpost : ((d.handlePostConfig peer).handlePostConfig none) = d.handlePostConfig peer := rfl
  simp only [lineStep, if_neg (text_ne_nil_of_lineKey hkey), hcut, if_pos hpublic, hpost]
  have hnone := handlePublicKeyLine_flag (p := p) (d := d.handlePostConfig peer) none entry.2
  rw [handlePublicKeyLine_flag peer]
  generalize (d.handlePostConfig peer).handlePublicKeyLine p none entry.2 = result at hnone ⊢
  obtain ⟨d₁, err | ⟨q, dummy, created, flag⟩⟩ := result
  · simp [Except.map]
  · obtain ⟨q', dummy', created', flag'⟩ := next
    have hflag : flag = false := by simpa [Except.map] using hnone
    simp only [Except.map, hflag, Sum.inl.injEq, Prod.mk.injEq, Option.some.injEq, IpcSetPeer.mk.injEq]
    tauto

theorem lineStep_flag {q : IpcSetPeer} (b : Bool)
    (h : d.lineStep p staged (some q) line = .inl (d', staged, some next)) :
    d.lineStep p staged (some { q with pkaOn := b }) line = .inl (d', staged,
      some { next with pkaOn := if SetsInterval line then next.pkaOn else b }) := by
  by_cases hkey : lineKey line = some "public_key"
  · rw [if_neg (by rw [SetsInterval, hkey]; decide)]
    exact (lineStep_public hkey).mpr ⟨((lineStep_public hkey).mp h).1, rfl⟩
  · unfold lineStep at h ⊢
    split at h
    · cases h
    split at h
    · cases h
    next hblank _ key value hcut =>
    have hname : lineKey line = some (String.ofList key) := by rw [lineKey, hcut]; rfl
    simp only [SetsInterval, hname] at hkey ⊢
    have hnot : String.ofList key ≠ "public_key" := fun heq => hkey (congrArg some heq)
    simp only [if_neg hblank, if_neg hnot] at h ⊢
    rw [handlePeerLine_flag]
    generalize d.handlePeerLine p q (String.ofList key) value = result at h ⊢
    obtain ⟨⟨d₁, q₁⟩, _ | err⟩ := result
    · cases h
      simp
    · cases h

theorem lineStep_turns {q : IpcSetPeer} (hkey : SetsInterval line)
    (h : d.lineStep p staged (some q) line = .inl (d', staged, some next)) :
    next.pkaOn = true ↔ (d.peers q.peer).persistentKeepaliveInterval = ⟨0, 0⟩ ∧
      (d'.peers q.peer).persistentKeepaliveInterval ≠ ⟨0, 0⟩ := by
  obtain ⟨entry, hcut, hname⟩ := map_eq_some_iff.mp hkey
  simp only [lineStep, if_neg (text_ne_nil_of_lineKey hkey), hcut, hname, handlePeerLine] at h
  cases hparse : Device.fails "failed to set persistent keepalive interval"
    (Device.UintRange.fromString entry.2) with
  | error err => simp [hparse] at h
  | ok rang =>
    simp only [hparse, String.reduceEq, ↓reduceIte, Sum.inl.injEq, Option.some.injEq, Prod.mk.injEq] at h
    obtain ⟨rfl, -, rfl⟩ := h
    simp [modifyPeer]

theorem lineStep_isSome (hkey : lineKey line ≠ some "public_key")
    (h : d.lineStep p staged peer line = .inl (d', staged, some next)) : ∃ q, peer = some q := by
  cases peer with
  | some q => exact ⟨q, rfl⟩
  | none =>
    unfold lineStep at h
    split at h
    · cases h
    split at h
    · cases h
    next key value hcut =>
    have hnot : String.ofList key ≠ "public_key" := by
      rintro heq
      exact hkey (by rw [lineKey, hcut, map_some, heq])
    rw [if_neg hnot] at h
    dsimp only at h
    split at h <;> cases h

theorem lineStep_keeps (hkey : ¬SetsInterval line)
    (h : d.lineStep p staged peer line = .inl (d', staged, some next)) :
    next.pkaOn = peer.elim false IpcSetPeer.pkaOn := by
  by_cases hpublic : lineKey line = some "public_key"
  · exact ((lineStep_public hpublic).mp h).2
  · obtain ⟨q, rfl⟩ := lineStep_isSome hpublic h
    have hflag := h.symm.trans (lineStep_flag q.pkaOn h)
    rw [if_neg hkey] at hflag
    exact congrArg (fun st => st.2.2.elim false IpcSetPeer.pkaOn) (Sum.inl.inj hflag)

-- The flag is on after the lines.
def FlagAfter (p : Platform E) (staged : IpcSetDevice) (d : Device E) (peer : Option IpcSetPeer)
    (lines : List Line) : Prop :=
  TurnsOnKeepalive p staged d peer lines ∨
    (peer.elim false IpcSetPeer.pkaOn = true ∧ ∀ line ∈ lines, ¬SetsInterval line)

theorem flagAfter_nil : FlagAfter p staged d peer [] ↔ peer.elim false IpcSetPeer.pkaOn = true := by
  simp only [FlagAfter, not_mem_nil, false_imp_iff, implies_true, and_true, or_iff_right_iff_imp]
  nofun

theorem flagAfter_step (h : d.lineStep p staged peer line = .inl (d', staged, some next)) :
    FlagAfter p staged d' (some next) lines ↔ FlagAfter p staged d peer (line :: lines) := by
  rw [FlagAfter, FlagAfter, forall_mem_cons, Option.elim]
  by_cases hkey : SetsInterval line
  · obtain ⟨q, rfl⟩ := lineStep_isSome (by rw [hkey]; decide) h
    rw [lineStep_turns hkey h]
    constructor
    · rintro (hlater | ⟨⟨hold, hnew⟩, hlast⟩)
      · exact .inl (.there h hlater)
      · exact .inl (.here hkey h hold hnew hlast)
    · rintro ((⟨-, h', hold, hnew, hlast⟩ | ⟨h', hlater⟩) | ⟨-, hnot, -⟩)
      · cases h.symm.trans h'
        exact .inr ⟨⟨hold, hnew⟩, hlast⟩
      · cases h.symm.trans h'
        exact .inl hlater
      · exact absurd hkey hnot
  · rw [lineStep_keeps hkey h, and_iff_right hkey]
    refine or_congr ⟨.there h, ?_⟩ Iff.rfl
    rintro (_ | ⟨h', hlater⟩)
    · contradiction
    · cases h.symm.trans h'
      exact hlater

theorem ipcSetLines_flag {q : IpcSetPeer} (b : Bool)
    (h : (ipcSetLines p readError d staged (some q) lines).2 = none) :
    ipcSetLines p readError d staged (some { q with pkaOn := b }) lines =
      ipcSetLines p readError d staged (some q) lines := by
  induction lines generalizing d q b with
  | nil => rfl
  | cons line lines ih =>
    by_cases hblank : line.text = []
    · rw [ipcSetLines, ipcSetLines, lineStep, lineStep, if_pos hblank, if_pos hblank]
      rfl
    · obtain ⟨d', next, hline, -, hrest⟩ := lineStep_of_success ⟨hblank, .inl rfl⟩ h
      rw [ipcSetLines_step hline, ipcSetLines_step (lineStep_flag b hline), ih _ hrest]

theorem postActions_flag (q : IpcSetPeer) (later later' : List PeerAction) :
    d.postActions (some { q with pkaOn := true }) ++ later =
        d.postActions (some { q with pkaOn := false }) ++ later' ↔
      d.postActions (some { q with pkaOn := false }) = [] ∧ later = later' := by
  unfold postActions
  by_cases hdummy : q.dummy = true
  · simp [hdummy]
  · by_cases hup : d.state = .up <;> simp [hdummy, hup]

theorem merge_of_finish (h : (d.finish staged peer readError).2 = none) :
    ∃ settings, staged.mergeWithDevice d.settings = (settings, .ok ()) := by
  unfold finish at h
  split at h
  · cases h
  next heq => exact ⟨_, heq⟩

theorem merge_of_success (hpeer : peer.isSome)
    (h : (ipcSetLines p readError d staged peer lines).2 = none) :
    ∃ settings, staged.mergeWithDevice d.settings = (settings, .ok ()) := by
  induction lines generalizing d peer with
  | nil => exact merge_of_finish h
  | cons line lines ih =>
    by_cases hblank : line.text = []
    · rw [ipcSetLines, lineStep, if_pos hblank] at h
      exact merge_of_finish h
    · obtain ⟨d', next, -, hsettings, hrest⟩ := lineStep_of_success ⟨hblank, .inl hpeer⟩ h
      rw [← hsettings]
      exact ih rfl hrest

-- With the flag on and with it off: the same actions exactly when there are
-- none before the next interval line.
theorem ipcSetActions_flag_iff {q : IpcSetPeer} {settings : Settings}
    (hmerge : staged.mergeWithDevice d.settings = (settings, .ok ()))
    (h : (ipcSetLines p readError d staged (some q) lines).2 = none) :
    d.ipcSetActions p staged (some { q with pkaOn := true }) lines =
        d.ipcSetActions p staged (some { q with pkaOn := false }) lines ↔
      QuietUntilInterval (d.ipcSetActions p staged (some { q with pkaOn := false })) lines := by
  induction lines generalizing d q with
  | nil =>
    have hend := postActions_flag (d := d) q [] []
    simpa only [quietUntilInterval_nil, ipcSetActions, finishActions, hmerge, append_nil,
      and_true] using hend
  | cons line lines ih =>
    rw [quietUntilInterval_cons]
    by_cases hblank : line.text = []
    · have hend := postActions_flag (d := d) q [] []
      simpa [SectionEnds, hblank, ipcSetActions, finishActions, hmerge] using hend
    obtain ⟨d', next, hline, hsettings, hrest⟩ := lineStep_of_success ⟨hblank, .inl rfl⟩ h
    have hnext := ih (hsettings ▸ hmerge) hrest
    have hflag : ∀ b back, d.ipcSetActions p staged (some { q with pkaOn := b }) (line :: back) = _ :=
      fun b back => ipcSetActions_step back hblank (lineStep_flag b hline)
    have hnil : d.ipcSetActions p staged (some { q with pkaOn := false }) [] =
        d.postActions (some { q with pkaOn := false }) := by rw [ipcSetActions, finishActions, hmerge]
    simp only [hflag, lineActions, SectionEnds, hnil]
    by_cases hkey : SetsInterval line
    · have hpublic : lineKey line ≠ some "public_key" := by rw [hkey]; decide
      simp only [if_pos hkey, if_neg hpublic]
      exact iff_of_true trivial ⟨fun hends => absurd hends (not_or.mpr ⟨hblank, hpublic⟩),
        fun _ hnot => absurd hkey hnot⟩
    by_cases hpublic : lineKey line = some "public_key"
    · simp only [if_neg hkey, if_pos hpublic, postActions_flag, hnext]
      constructor
      · rintro ⟨hpost, hquiet⟩
        exact ⟨fun _ => hpost, fun _ _ => by simpa only [hpost, nil_append] using hquiet⟩
      · rintro ⟨hpost, hquiet⟩
        have hpost := hpost (.inr hpublic)
        exact ⟨hpost, by simpa only [hpost, nil_append] using hquiet hblank hkey⟩
    · simp only [if_neg hkey, if_neg hpublic, nil_append, hnext]
      exact ⟨fun hquiet => ⟨fun hends => absurd hends (not_or.mpr ⟨hblank, hpublic⟩),
        fun _ _ => hquiet⟩, fun hquiet => hquiet.2 hblank hkey⟩

theorem ipcSetLines_append {front : List Line} (hblank : ∀ line ∈ front, line.text ≠ [])
    (hpeer : peer.isSome ∨ ∀ line ∈ front.head?, lineKey line = some "public_key")
    (h : (ipcSetLines p readError d staged peer (front ++ lines)).2 = none) :
    ∃ d' peer' acts, (peer'.elim false IpcSetPeer.pkaOn = true ↔ FlagAfter p staged d peer front) ∧
      d'.settings = d.settings ∧ (peer.isSome ∨ front ≠ [] → peer'.isSome) ∧
      ∀ back, ipcSetLines p readError d staged peer (front ++ back) =
          ipcSetLines p readError d' staged peer' back ∧
        d.ipcSetActions p staged peer (front ++ back) = acts ++ d'.ipcSetActions p staged peer' back := by
  induction front generalizing d peer with
  | nil => exact ⟨d, peer, [], flagAfter_nil.symm, rfl, by simp, fun back => ⟨rfl, rfl⟩⟩
  | cons line front ih =>
    have hline := hblank line mem_cons_self
    obtain ⟨d', next, hstep, hsettings, hrest⟩ :=
      lineStep_of_success ⟨hline, hpeer.imp id fun hhead => hhead line rfl⟩ h
    obtain ⟨d'', peer'', acts, hflag, hsettings', hsome, hback⟩ :=
      ih (fun l hl => hblank l (mem_cons_of_mem line hl)) (.inl rfl) hrest
    refine ⟨d'', peer'', d.lineActions peer line ++ acts, hflag.trans (flagAfter_step hstep),
      hsettings'.trans hsettings, fun _ => hsome (.inl rfl), fun back => ?_⟩
    rw [cons_append, ipcSetLines_step hstep, ipcSetActions_step _ hline hstep, (hback back).1,
      (hback back).2, append_assoc]
    exact ⟨rfl, rfl⟩

end

def sampleLine (e : Entry) : Line := ⟨e.text, .calm⟩

def sampleKeepalive : Line := sampleLine ("persistent_keepalive_interval", "25".toList)

abbrev sampleKey (k : Control.Key) : Line := sampleLine (keyf "public_key" k)

end Device

end StarlingWg.Uapi
