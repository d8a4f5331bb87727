import StarlingWg.Interaction.Execution
import Mathlib.Data.List.Induction
import Mathlib.Data.List.TakeWhile
import Mathlib.Data.Seq.Basic
import StarlingWg.Bytes

namespace StarlingWg.Orchestrate

open Interaction List

abbrev Packet := Bytes

inductive ReadError
  | tooManySegments
  | other (text : String)
  deriving DecidableEq, Repr

-- Device.RoutineReadFromTUN goes on after tun.ErrTooManySegments only.
def ReadError.recoverable : ReadError → Bool
  | .tooManySegments => true
  | .other _ => false

-- What Read of a tun.Device returns for the one buffer the pump passes: the
-- count, the bytes sizes[0] delimits in the buffer, and the error.
structure ReadResult where
  count : Nat
  data : Packet
  err : Option ReadError
  deriving DecidableEq, Repr

-- With one buffer there is at most one packet.
def ReadResult.packets (r : ReadResult) : List Packet :=
  if r.count = 0 then [] else [r.data]

def ReadResult.goesOn (r : ReadResult) : Bool :=
  r.err.all ReadError.recoverable

def deviceStream (results : List ReadResult) : List Packet :=
  (results.takeWhile ReadResult.goesOn).flatMap ReadResult.packets

-- tunReadResult: a packet or an error.
inductive TunReadResult
  | data (pkt : Packet)
  | err (e : ReadError)
  deriving DecidableEq, Repr

-- Where the pump is: in Read of the real device, in deliver, after which it
-- may return, or returned.
inductive Pump
  | reading
  | delivering (r : TunReadResult) (last : Bool)
  | returned
  deriving DecidableEq, Repr

-- A shared TUN with one session attached and active, whose owner keeps calling
-- Read: `waiting` while it is in the call. `results` is what the real device
-- has returned so far and `seen` the packets the owner of the session got.
structure SharedTUN where
  results : List ReadResult := []
  pump : Pump := .reading
  waiting : Bool := false
  seen : List Packet := []

namespace SharedTUN

-- One round of the loop of pump up to deliver. Any error ends it, and what
-- was returned with the error is not looked at.
def pumped (s : SharedTUN) (r : ReadResult) : SharedTUN :=
  { s with
    results := s.results ++ [r]
    pump := match r.err with
      | some e => .delivering (.err e) true
      | none => if r.count = 0 then .reading else .delivering (.data r.data) false }

-- tunSession.Read copies as much of the packet as the caller has room for.
def received (s : SharedTUN) (room : Nat) (r : TunReadResult) (last : Bool) : SharedTUN :=
  { s with
    pump := if last then .returned else .reading
    waiting := false
    seen := match r with
      | .data pkt => s.seen ++ [pkt.take room]
      | .err _ => s.seen }

-- The pump reads, deliver hands its result to a waiting Read, or the owner of
-- the session calls Read again.
inductive Step (real : Stream'.Seq ReadResult) (room : Nat) : SharedTUN → SharedTUN → Prop
  | read {s : SharedTUN} {r : ReadResult} : s.pump = .reading →
      real.get? s.results.length = some r → Step real room s (s.pumped r)
  | deliver {s : SharedTUN} {r : TunReadResult} {last : Bool} : s.pump = .delivering r last →
      s.waiting = true → Step real room s (s.received room r last)
  | call {s : SharedTUN} : s.waiting = false → Step real room s { s with waiting := true }

end SharedTUN

def Initial (real : Stream'.Seq ReadResult) (results : List ReadResult) : Prop :=
  ∀ i < results.length, real.get? i = results[i]?

def Transparent (real : Stream'.Seq ReadResult) (run : Nat → SharedTUN) : Prop :=
  ∀ (i : Nat) (pkt : Packet), (∃ k, (run k).seen[i]? = some pkt) ↔
    ∃ results, Initial real results ∧ (deviceStream results)[i]? = some pkt

-- Every packet returned before the first error fits the buffer of the
-- session's reader, and none is returned from the first error on.
def Undamaged (real : Stream'.Seq ReadResult) (room : Nat) : Prop :=
  ∀ results r, Initial real (results ++ [r]) → (∀ r' ∈ results, r'.goesOn = true) →
    r.goesOn = true → r.packets ≠ [] →
    (∀ r' ∈ results, r'.err = none) ∧ r.err = none ∧ r.data.length ≤ room

-- The packets the pump takes from these results: it stops at the first error.
def pumpStream (results : List ReadResult) : List Packet :=
  (results.takeWhile fun r => r.err.isNone).flatMap ReadResult.packets

section

variable {real : Stream'.Seq ReadResult} {results : List ReadResult} {r : ReadResult}

theorem takeWhile_append_of_not_all {α : Type} {p : α → Bool} {l more : List α}
    (h : ¬∀ a ∈ l, p a = true) : (l ++ more).takeWhile p = l.takeWhile p := by
  rw [takeWhile_append, if_neg]
  intro hlen
  exact h (takeWhile_eq_self_iff.mp ((takeWhile_sublist p).eq_of_length hlen))

theorem pumpStream_of_clean (hclean : ∀ r' ∈ results, r'.err = none) :
    pumpStream results = results.flatMap ReadResult.packets := by
  rw [pumpStream, takeWhile_eq_self_iff.mpr fun r' hr' => by simp [hclean r' hr']]

theorem pumpStream_append (hclean : ∀ r' ∈ results, r'.err = none) : pumpStream (results ++ [r]) =
      pumpStream results ++ if r.err = none then r.packets else [] := by
  rw [pumpStream, takeWhile_append_of_pos fun r' hr' => by simp [hclean r' hr'],
    pumpStream_of_clean hclean]
  cases herr : r.err with
  | none => simp [herr]
  | some e => simp [herr]

theorem pumpStream_stops {more : List ReadResult} (hdirty : ¬∀ r' ∈ results, r'.err = none) :
    pumpStream (results ++ more) = pumpStream results := by
  rw [pumpStream, takeWhile_append_of_not_all, pumpStream]
  exact fun hall => hdirty fun r' hr' => by simpa using hall r' hr'

theorem deviceStream_of_goesOn (hon : ∀ r' ∈ results, r'.goesOn = true) :
    deviceStream results = results.flatMap ReadResult.packets := by
  rw [deviceStream, takeWhile_eq_self_iff.mpr hon]

theorem deviceStream_append (hon : ∀ r' ∈ results, r'.goesOn = true) :
    deviceStream (results ++ [r]) =
      deviceStream results ++ if r.goesOn = true then r.packets else [] := by
  rw [deviceStream, takeWhile_append_of_pos hon, deviceStream_of_goesOn hon]
  cases hr : r.goesOn with
  | true => simp [hr]
  | false => simp [hr]

theorem deviceStream_stops {more : List ReadResult} (hoff : ¬∀ r' ∈ results, r'.goesOn = true) :
    deviceStream (results ++ more) = deviceStream results := by
  rw [deviceStream, takeWhile_append_of_not_all hoff, deviceStream]

theorem Initial.of_append {more : List ReadResult} (h : Initial real (results ++ more)) :
    Initial real results := by
  intro i hi
  rw [h i (by simp; omega), List.getElem?_append_left hi]

theorem Initial.append (h : Initial real results) (hr : real.get? results.length = some r) :
    Initial real (results ++ [r]) := by
  intro i hi
  simp only [length_append, length_singleton] at hi
  by_cases he : i = results.length
  · simp [he, hr]
  · rw [List.getElem?_append_left (by omega)]
    exact h i (by omega)

theorem Initial.extends {longer : List ReadResult} (h : Initial real results)
    (h' : Initial real longer) (hle : results.length ≤ longer.length) :
    ∃ more, longer = results ++ more := by
  have htake : results = longer.take results.length := by
    refine ext_getElem? fun i => ?_
    by_cases hi : i < results.length
    · rw [← h i hi, h' i (by omega), List.getElem?_take_of_lt hi]
    · rw [List.getElem?_eq_none (by omega), List.getElem?_eq_none (by simp; omega)]
  exact ⟨longer.drop results.length, by
    nth_rewrite 1 [← take_append_drop results.length longer]
    rw [← htake]⟩

theorem Initial.get? (h : Initial real (results ++ [r])) : real.get? results.length = some r := by
  rw [h results.length (by simp)]
  simp

end

-- What the session has seen is what the pump has taken, but for the packet
-- that deliver still holds.
def Following (real : Stream'.Seq ReadResult) (room : Nat) (s : SharedTUN) : Prop :=
  Initial real s.results ∧
  match s.pump with
  | .reading => (∀ r ∈ s.results, r.err = none) ∧
      s.seen = (pumpStream s.results).map (List.take room)
  | .delivering (.data pkt) last => last = false ∧ (∀ r ∈ s.results, r.err = none) ∧
      s.seen ++ [pkt.take room] = (pumpStream s.results).map (List.take room)
  | .delivering (.err _) last => last = true ∧ s.seen = (pumpStream s.results).map (List.take room)
  | .returned => s.seen = (pumpStream s.results).map (List.take room)

section

variable {real : Stream'.Seq ReadResult} {room : Nat} {run : Nat → SharedTUN} {s s' : SharedTUN}

theorem Following.step (hf : Following real room s) (hs : SharedTUN.Step real room s s') :
    Following real room s' := by
  obtain ⟨hinit, hpump⟩ := hf
  cases hs with
  | @read r hreading hr =>
    rw [hreading] at hpump
    obtain ⟨hclean, hseen⟩ := hpump
    refine ⟨hinit.append hr, ?_⟩
    have happend := pumpStream_append (r := r) hclean
    cases herr : r.err with
    | some e => simp [SharedTUN.pumped, herr, happend, hseen]
    | none =>
      have hclean' : ∀ r' ∈ s.results ++ [r], r'.err = none := by
        intro r' hr'
        rcases mem_append.mp hr' with hr' | hr'
        · exact hclean r' hr'
        · rw [mem_singleton.mp hr', herr]
      by_cases hcount : r.count = 0
      · simp only [SharedTUN.pumped, herr, hcount, ↓reduceIte]
        refine ⟨hclean', ?_⟩
        simp [happend, herr, ReadResult.packets, hcount, hseen]
      · simp only [SharedTUN.pumped, herr, hcount, ↓reduceIte]
        refine ⟨trivial, hclean', ?_⟩
        simp [happend, herr, ReadResult.packets, hcount, hseen]
  | @deliver r last hdelivering _ =>
    rw [hdelivering] at hpump
    cases r with
    | data pkt =>
      obtain ⟨rfl, hclean, hseen⟩ := hpump
      exact ⟨hinit, hclean, hseen⟩
    | err e =>
      obtain ⟨rfl, hseen⟩ := hpump
      exact ⟨hinit, hseen⟩
  | call _ => exact ⟨hinit, hpump⟩

theorem Following.initial (real : Stream'.Seq ReadResult) (room : Nat) : Following real room {} :=
  ⟨fun i hi => absurd hi (Nat.not_lt_zero i), by simp, rfl⟩

theorem Following.seen_le (hf : Following real room s) {i : Nat} {pkt : Packet}
    (hseen : s.seen[i]? = some pkt) :
    ((pumpStream s.results).map (List.take room))[i]? = some pkt := by
  obtain ⟨-, hpump⟩ := hf
  have hlt : i < s.seen.length := (List.getElem?_eq_some_iff.mp hseen).1
  cases hcase : s.pump with
  | reading =>
    rw [hcase] at hpump
    rw [← hpump.2, hseen]
  | delivering r last =>
    rw [hcase] at hpump
    cases r with
    | data held => rw [← hpump.2.2, List.getElem?_append_left hlt, hseen]
    | err e => rw [← hpump.2, hseen]
  | returned =>
    rw [hcase] at hpump
    rw [← hpump, hseen]

-- As long as there is no error the pump gets to every result and hands over
-- its packet. The pump waits for the reader only while it delivers.
theorem pump_reaches (h0 : run 0 = {}) (hr : Complete (SharedTUN.Step real room) run)
    {results : List ReadResult} (hinit : Initial real results)
    (hclean : ∀ r ∈ results, r.err = none) :
    ∃ k, (run k).results = results ∧ (run k).pump = .reading := by
  induction results using List.reverseRecOn with
  | nil => exact ⟨0, by simp [h0], by simp [h0]⟩
  | append_singleton results r ih =>
    obtain ⟨j, hj⟩ := ih hinit.of_append fun r' hr' => hclean r' (mem_append_left _ hr')
    have herr : r.err = none := hclean r (by simp)
    refine hr.reaches (fun s => (s.results = results ∧ s.pump = .reading) ∨
        (s.results = results ++ [r] ∧ s.pump = .delivering (.data r.data) false))
      (fun s => s.results = results ++ [r] ∧ s.pump = .reading)
      (fun s => (if s.pump = .reading then 2 else 0) + if s.waiting then 0 else 1) ?_
      (j := j) (.inl hj)
    rintro s (⟨hres, hpump⟩ | ⟨hres, hpump⟩) hgoal
    · refine ⟨⟨_, .read hpump (hres ▸ hinit.get?)⟩, fun s' hs => ?_⟩
      cases hs with
      | @read r' _ hr' =>
        obtain rfl : r = r' := by
          rw [hres, hinit.get?] at hr'
          exact Option.some.inj hr'
        by_cases hcount : r.count = 0
        · exact .inl ⟨by simp [SharedTUN.pumped, hres], by simp [SharedTUN.pumped, herr, hcount]⟩
        · refine .inr ⟨.inr ⟨by simp [SharedTUN.pumped, hres], ?_⟩, ?_⟩
          · simp [SharedTUN.pumped, herr, hcount]
          · simp [SharedTUN.pumped, herr, hcount, hpump]
      | deliver hdelivering => simp [hpump] at hdelivering
      | call hwaiting => exact .inr ⟨.inl ⟨hres, hpump⟩, by simp [hwaiting]⟩
    · constructor
      · cases hwaiting : s.waiting with
        | true => exact ⟨_, .deliver hpump hwaiting⟩
        | false => exact ⟨_, .call hwaiting⟩
      · intro s' hs
        cases hs with
        | read hreading => simp [hpump] at hreading
        | @deliver r' last hdelivering _ =>
          rw [hpump] at hdelivering
          obtain ⟨-, rfl⟩ := Pump.delivering.inj hdelivering
          exact .inl ⟨hres, rfl⟩
        | call hwaiting => exact .inr ⟨.inr ⟨hres, hpump⟩, by simp [hwaiting, hpump]⟩

theorem seen_iff (h0 : run 0 = {}) (hr : Complete (SharedTUN.Step real room) run) (i : Nat)
    (pkt : Packet) :
    (∃ k, (run k).seen[i]? = some pkt) ↔
      ∃ results, Initial real results ∧
        ((pumpStream results).map (List.take room))[i]? = some pkt := by
  have hfollow : ∀ k, Following real room (run k) :=
    hr.invariant (h0 ▸ .initial real room) fun s s' hf hs => hf.step hs
  constructor
  · rintro ⟨k, hseen⟩
    exact ⟨(run k).results, (hfollow k).1, (hfollow k).seen_le hseen⟩
  · rintro ⟨results, hinit, hpkt⟩
    -- the results before the first error make up the stream
    have hsplit := takeWhile_append_dropWhile (p := fun r : ReadResult => r.err.isNone)
      (l := results)
    have hclean : ∀ r ∈ results.takeWhile fun r => r.err.isNone, r.err = none := by
      intro r hr
      simpa using mem_takeWhile_imp hr
    rw [← hsplit] at hinit
    obtain ⟨k, hres, hpump⟩ := pump_reaches h0 hr hinit.of_append hclean
    refine ⟨k, ?_⟩
    have hseen := (hfollow k).2
    rw [hpump, hres] at hseen
    rw [hseen.2, pumpStream_of_clean hclean]
    exact hpkt

end

section

variable {real : Stream'.Seq ReadResult} {room : Nat} {results : List ReadResult} {r : ReadResult}

theorem ReadResult.goesOn_of_err (hr : r.err = none) : r.goesOn = true := by
  simp [ReadResult.goesOn, hr]

theorem pumpStream_idle
    (h : (∀ r' ∈ results, r'.err = none) → r.packets = [] ∨ r.err ≠ none) :
    pumpStream (results ++ [r]) = pumpStream results := by
  by_cases hclean : ∀ r' ∈ results, r'.err = none
  · rcases h hclean with hr | hr <;> simp [pumpStream_append hclean, hr]
  · exact pumpStream_stops hclean

theorem Undamaged.streams (hu : Undamaged real room) (hinit : Initial real results) :
    (pumpStream results).map (List.take room) = deviceStream results := by
  induction results using List.reverseRecOn with
  | nil => rfl
  | append_singleton results r ih =>
    have ih := ih hinit.of_append
    by_cases hon : ∀ r' ∈ results, r'.goesOn = true
    · rw [deviceStream_append hon, ← ih]
      by_cases hpkt : r.packets = []
      · simp [pumpStream_idle fun _ => .inl hpkt, hpkt]
      · by_cases hr : r.goesOn = true
        · obtain ⟨hclean, herr, hfits⟩ := hu results r hinit hon hr hpkt
          have htake : r.packets.map (List.take room) = r.packets := by
            have hcount : r.count ≠ 0 := fun h0 => hpkt (by simp [ReadResult.packets, h0])
            simp [ReadResult.packets, hcount, take_of_length_le hfits]
          simp [pumpStream_append hclean, herr, hr, htake]
        · have herr : r.err ≠ none := fun he => hr (ReadResult.goesOn_of_err he)
          simp [pumpStream_idle fun _ => .inr herr, hr]
    · have hdirty : ¬∀ r' ∈ results, r'.err = none := fun hall =>
        hon fun r' hr' => ReadResult.goesOn_of_err (hall r' hr')
      rw [deviceStream_stops hon, pumpStream_stops hdirty, ih]

theorem pumpStream_length_le : (pumpStream results).length ≤ (results.flatMap ReadResult.packets).length := by
  nth_rewrite 2 [← takeWhile_append_dropWhile (p := fun r : ReadResult => r.err.isNone)
    (l := results)]
  simp only [flatMap_append, length_append]
  exact Nat.le_add_right _ _

theorem pumpStream_extends (results more : List ReadResult) :
    ∃ rest, pumpStream (results ++ more) = pumpStream results ++ rest := by
  by_cases hclean : ∀ r' ∈ results, r'.err = none
  · refine ⟨pumpStream more, ?_⟩
    rw [pumpStream_of_clean hclean, pumpStream, pumpStream,
      takeWhile_append_of_pos fun r' hr' => by simp [hclean r' hr'], flatMap_append]
  · exact ⟨[], by rw [pumpStream_stops hclean, append_nil]⟩

theorem Initial.pumpStream_length_le {other : List ReadResult} (h : Initial real (results ++ [r]))
    (h' : Initial real other) (hdirty : ¬∀ r' ∈ results ++ [r], r'.err = none) :
    (pumpStream other).length ≤ (results.flatMap ReadResult.packets).length := by
  have hlast : pumpStream (results ++ [r]) = pumpStream results :=
    pumpStream_idle fun hclean => .inr fun he => hdirty fun r' hr' => by
      rcases mem_append.mp hr' with hr' | hr'
      · exact hclean r' hr'
      · rw [mem_singleton.mp hr', he]
  have hother : (pumpStream other).length ≤ (pumpStream (results ++ [r])).length := by
    by_cases hle : other.length ≤ (results ++ [r]).length
    · obtain ⟨more, hmore⟩ := h'.extends h hle
      obtain ⟨rest, hrest⟩ := pumpStream_extends other more
      rw [hmore, hrest, length_append]
      exact Nat.le_add_right _ _
    · obtain ⟨more, rfl⟩ := h.extends h' (by omega)
      rw [pumpStream_stops hdirty]
  rw [hlast] at hother
  exact Nat.le_trans hother Orchestrate.pumpStream_length_le

theorem Initial.pumpStream_getElem? {other : List ReadResult} (h : Initial real results)
    (h' : Initial real other) {i : Nat} {p q : Packet} (hp : (pumpStream results)[i]? = some p)
    (hq : (pumpStream other)[i]? = some q) : p = q := by
  have hagree : ∀ {shorter more : List ReadResult} {p q : Packet},
      (pumpStream shorter)[i]? = some p → (pumpStream (shorter ++ more))[i]? = some q → p = q := by
    intro shorter more p q hp hq
    obtain ⟨rest, hrest⟩ := pumpStream_extends shorter more
    rw [hrest, List.getElem?_append_left (List.getElem?_eq_some_iff.mp hp).1, hp] at hq
    exact Option.some.inj hq
  by_cases hle : results.length ≤ other.length
  · obtain ⟨more, rfl⟩ := h.extends h' hle
    exact hagree hp hq
  · obtain ⟨more, rfl⟩ := h'.extends h (by omega)
    exact (hagree hq hp).symm

end

-- The pump stops at errors that the device survives.
theorem session_transparent_iff (real : Stream'.Seq ReadResult) (room : Nat)
    {run : Nat → SharedTUN} (h0 : run 0 = {}) (hr : Complete (SharedTUN.Step real room) run) :
    Transparent real run ↔ Undamaged real room := by
  constructor
  · intro htrans results r hinit hon hr' hpkt
    have hcount : r.count ≠ 0 := fun hc => hpkt (by simp [ReadResult.packets, hc])
    have hstream : (deviceStream (results ++ [r]))[(results.flatMap ReadResult.packets).length]? =
        some r.data := by
      simp [deviceStream_append hon, deviceStream_of_goesOn hon, hr', ReadResult.packets, hcount]
    -- the session sees this packet, so the pump took it
    obtain ⟨other, hother, hseen⟩ := (seen_iff h0 hr _ _).mp ((htrans _ _).mpr ⟨_, hinit, hstream⟩)
    rw [List.getElem?_map, Option.map_eq_some_iff] at hseen
    obtain ⟨pkt, htaken, hcut⟩ := hseen
    have hclean : ∀ r' ∈ results ++ [r], r'.err = none := by
      by_contra hdirty
      have hle := hinit.pumpStream_length_le hother hdirty
      exact absurd (List.getElem?_eq_some_iff.mp htaken).1 (by omega)
    have hclean' : ∀ r' ∈ results, r'.err = none := fun r' hr' =>
      hclean r' (mem_append_left _ hr')
    have herr : r.err = none := hclean r (by simp)
    have hpumped : (pumpStream (results ++ [r]))[(results.flatMap ReadResult.packets).length]? =
        some r.data := by
      simp [pumpStream_append hclean', pumpStream_of_clean hclean', herr, ReadResult.packets, hcount]
    obtain rfl := hother.pumpStream_getElem? hinit htaken hpumped
    refine ⟨hclean', herr, ?_⟩
    rw [← hcut, length_take]
    exact Nat.min_le_left _ _
  · intro hu i pkt
    rw [seen_iff h0 hr]
    constructor
    · rintro ⟨results, hinit, hpkt⟩
      exact ⟨results, hinit, hu.streams hinit ▸ hpkt⟩
    · rintro ⟨results, hinit, hpkt⟩
      exact ⟨results, hinit, (hu.streams hinit).symm ▸ hpkt⟩

def packetThenSegments : Stream'.Seq ReadResult :=
  .ofList [⟨1, [69, 0], none⟩, ⟨0, [], some .tooManySegments⟩]

theorem session_transparent_iff_packet : ∃ run : Nat → SharedTUN, run 0 = {} ∧
    Complete (SharedTUN.Step packetThenSegments 1500) run ∧ Transparent packetThenSegments run := by
  obtain ⟨run, h0, hr⟩ := exists_complete (SharedTUN.Step packetThenSegments 1500) {}
  refine ⟨run, h0, hr, (session_transparent_iff packetThenSegments 1500 h0 hr).mpr ?_⟩
  intro results r hinit _ _ hpkt
  have hget := hinit.get?
  match hlen : results.length with
  | 0 =>
    obtain rfl := length_eq_zero_iff.mp hlen
    obtain rfl : (⟨1, [69, 0], none⟩ : ReadResult) = r := by
      simpa [packetThenSegments] using hget
    simp
  | 1 =>
    obtain rfl : (⟨0, [], some .tooManySegments⟩ : ReadResult) = r := by
      simpa [packetThenSegments, hlen] using hget
    exact absurd rfl hpkt
  | n + 2 => simp [packetThenSegments, hlen] at hget

def segmentsThenPacket : Stream'.Seq ReadResult :=
  .ofList [⟨0, [], some .tooManySegments⟩, ⟨1, [69, 0], none⟩]

theorem segments_silence_session : ∃ run : Nat → SharedTUN, run 0 = {} ∧
    Complete (SharedTUN.Step segmentsThenPacket 1500) run ∧ ¬Transparent segmentsThenPacket run := by
  obtain ⟨run, h0, hr⟩ := exists_complete (SharedTUN.Step segmentsThenPacket 1500) {}
  refine ⟨run, h0, hr, fun htrans => ?_⟩
  have hinit : Initial segmentsThenPacket
      ([⟨0, [], some .tooManySegments⟩] ++ [⟨1, [69, 0], none⟩]) := by
    intro i _
    exact Stream'.Seq.ofList_get? ..
  obtain ⟨other, hother, hseen⟩ :=
    (seen_iff h0 hr _ _).mp ((htrans 0 [69, 0]).mpr ⟨_, hinit, by decide⟩)
  have hfirst : Initial segmentsThenPacket ([] ++ [⟨0, [], some .tooManySegments⟩]) :=
    hinit.of_append
  have hle := hfirst.pumpStream_length_le hother (by simp)
  have hlt := (List.getElem?_eq_some_iff.mp hseen).1
  rw [length_map] at hlt
  exact absurd hle (Nat.not_le.mpr hlt)

end StarlingWg.Orchestrate
