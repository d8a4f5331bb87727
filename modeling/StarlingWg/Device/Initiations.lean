import StarlingWg.Device.Timers
import StarlingWg.Noise.Primitives

namespace StarlingWg.Device

open StarlingWg.Noise (Timestamp)

-- The granularity that the whitener leaves, in nanoseconds.
def whitenerUnit : Nat := 16777216

-- A time is the number of nanoseconds since 1970.
def stamp (t : Nat) : Timestamp :=
  let secs := (0x400000000000000a + t / 1000000000) % 2 ^ 64
  let nano := t % 1000000000 / whitenerUnit * whitenerUnit
  .ofNat 96 (secs * 2 ^ 32 + nano)

-- time.Time counts its seconds in an int64.
def maxTime : Nat := 2 ^ 63 * 1000000000

theorem stamp_toNat {t : Nat} (h : t < maxTime) :
    (stamp t).toNat = (0x400000000000000a + t / 1000000000) * 4294967296 +
      t % 1000000000 / 16777216 * 16777216 := by
  rw [maxTime] at h
  have hsecs : (0x400000000000000a + t / 1000000000) % 2 ^ 64 = 0x400000000000000a + t / 1000000000 :=
    Nat.mod_eq_of_lt (by omega)
  simp only [stamp, whitenerUnit, hsecs, BitVec.toNat_ofNat]
  exact Nat.mod_eq_of_lt (by omega)

theorem stamp_after {earlier later : Nat} (h : earlier + whitenerUnit ≤ later) (hmax : later < maxTime) :
    (stamp later).after (stamp earlier) = true := by
  rw [whitenerUnit] at h
  rw [Timestamp.after, decide_eq_true_eq, BitVec.lt_def, stamp_toNat hmax, stamp_toNat (by omega)]
  -- either a later second, or another unit of the same one
  rcases Nat.lt_or_ge (earlier / 1000000000) (later / 1000000000) with hsecond | hsecond <;> omega

-- The calls that set the time of the last handshake, with what they read
-- off the clock: an initiation for its two checks, to store it, and to stamp
-- the message, which may also fail to be created.
inductive HandshakeCall
  | sendHandshakeInitiation (first second sent stamped : Nat) (created : Bool)
  | sendHandshakeResponse (now : Nat)
  | expireCurrentKeypairs (now : Nat)
  | start (now : Nat)
  | stop

-- `latest` is the last reading, `stamped` are the times in the initiations,
-- the last one first.
structure HandshakeTimes where
  lastSentHandshake : Int
  isRunning : Bool
  latest : Nat
  stamped : List Nat

namespace HandshakeTimes

variable (timeout : Int) (s : HandshakeTimes)

def reset (now : Nat) : HandshakeTimes :=
  { s with lastSentHandshake := now - (timeout + 1000000000), latest := now }

def step : HandshakeCall → HandshakeTimes
  | .sendHandshakeInitiation first second sent stamped created =>
    if first - s.lastSentHandshake < timeout then { s with latest := first }
    else if second - s.lastSentHandshake < timeout then { s with latest := second }
    else { s with
      lastSentHandshake := sent
      latest := stamped
      stamped := if created then stamped :: s.stamped else s.stamped }
  | .sendHandshakeResponse now => { s with lastSentHandshake := now, latest := now }
  | .expireCurrentKeypairs now => s.reset timeout now
  | .start now => if s.isRunning then s else { s.reset timeout now with isRunning := true }
  | .stop => { s with isRunning := false }

def run : List HandshakeCall → HandshakeTimes :=
  List.foldl (step timeout) s

-- A message is stamped while the next initiation is held back by more than
-- the granularity, and the limiter is not reset within it after a stamp.
def Calm : HandshakeCall → Prop
  | .sendHandshakeInitiation _ _ sent stamped _ =>
    (stamped + whitenerUnit : Int) ≤ sent + timeout
  | .expireCurrentKeypairs now => ∀ t ∈ s.stamped, t + whitenerUnit ≤ now
  | .start now => s.isRunning = true ∨ ∀ t ∈ s.stamped, t + whitenerUnit ≤ now
  | .sendHandshakeResponse _ | .stop => True

-- What a call reads off the clock is after all that was read before. An
-- initiation that is refused reads no further.
def Ticks : HandshakeCall → Prop
  | .sendHandshakeInitiation first second sent stamped _ => s.latest < first ∧
    (timeout ≤ first - s.lastSentHandshake → first < second ∧
      (timeout ≤ second - s.lastSentHandshake → second < sent ∧ sent < stamped ∧ stamped < maxTime))
  | .sendHandshakeResponse now | .expireCurrentKeypairs now => s.latest < now
  | .start now => s.isRunning = true ∨ s.latest < now
  | .stop => True

def Throughout (P : HandshakeTimes → HandshakeCall → Prop) (s : HandshakeTimes) : List HandshakeCall → Prop
  | [] => True
  | call :: calls => P s call ∧ Throughout P (s.step timeout call) calls

-- The next stamp comes after the granularity of every earlier one: by the
-- limiter, or because that much time has passed.
structure Apart : Prop where
  sent : s.lastSentHandshake ≤ s.latest
  next : ∀ t ∈ s.stamped, (t + whitenerUnit : Int) ≤ s.lastSentHandshake + timeout ∨
    t + whitenerUnit ≤ s.latest
  increasing : s.stamped.Pairwise fun later earlier => (stamp later).after (stamp earlier) = true

end HandshakeTimes

namespace HandshakeTimes

variable {timeout : Int} {s : HandshakeTimes}

theorem Apart.later (h : s.Apart timeout) {now : Nat} (hnow : s.latest < now) :
    ({ s with latest := now } : HandshakeTimes).Apart timeout where
  sent := by
    have := h.sent
    dsimp only
    omega
  next t ht := (h.next t ht).imp id fun hle => by
    dsimp only
    omega
  increasing := h.increasing

theorem Apart.reset (h : s.Apart timeout) (htimeout : 0 ≤ timeout) {now : Nat}
    (hcalm : ∀ t ∈ s.stamped, t + whitenerUnit ≤ now) : (s.reset timeout now).Apart timeout where
  sent := by
    simp only [HandshakeTimes.reset]
    omega
  next t ht := .inr (hcalm t ht)
  increasing := h.increasing

theorem Apart.initiation (h : s.Apart timeout) {second sent stamped : Nat} (created : Bool)
    (hpassed : ¬second - s.lastSentHandshake < timeout)
    (hsecond : s.latest < second) (hsent : second < sent) (hstamped : sent < stamped)
    (hmax : stamped < maxTime)
    (hcalm : (stamped + whitenerUnit : Int) ≤ sent + timeout) :
    ({ s with
      lastSentHandshake := sent
      latest := stamped
      stamped := if created then stamped :: s.stamped else s.stamped } : HandshakeTimes).Apart
        timeout := by
  have hold : ∀ t ∈ s.stamped, t + whitenerUnit ≤ stamped := by
    intro t ht
    rcases h.next t ht with hlimited | hpast <;> omega
  refine ⟨by dsimp only; omega, ?_, ?_⟩
  · intro t ht
    cases created with
    | false => exact .inr (hold t ht)
    | true =>
      rcases List.mem_cons.mp ht with rfl | ht
      · exact .inl hcalm
      · exact .inr (hold t ht)
  · cases created with
    | false => exact h.increasing
    | true => exact .cons (fun t ht => stamp_after (hold t ht) hmax) h.increasing

theorem Apart.step (h : s.Apart timeout) (htimeout : 0 ≤ timeout) {call : HandshakeCall}
    (hcalm : s.Calm timeout call) (hticks : s.Ticks timeout call) : (s.step timeout call).Apart timeout := by
  cases call with
  | sendHandshakeInitiation first second sent stamped created =>
    obtain ⟨hfirst, hrest⟩ := hticks
    simp only [HandshakeTimes.step]
    split
    · exact h.later hfirst
    · next hpassed =>
        obtain ⟨hsecond, hrest⟩ := hrest (Int.not_lt.mp hpassed)
        split
        · exact h.later (by omega)
        · next hpassed =>
            obtain ⟨hsent, hstamped, hmax⟩ := hrest (Int.not_lt.mp hpassed)
            exact h.initiation created hpassed (by omega) hsent hstamped hmax hcalm
  | sendHandshakeResponse now =>
    have hnow : s.latest < now := hticks
    refine ⟨Int.le_refl _, fun t ht => ?_, h.increasing⟩
    have hsent := h.sent
    simp only [HandshakeTimes.step] at ht ⊢
    rcases h.next t ht with hlimited | hpast <;> omega
  | expireCurrentKeypairs now => exact h.reset htimeout hcalm
  | start now =>
    simp only [HandshakeTimes.step]
    split
    · exact h
    · next hrunning =>
        have hreset := h.reset htimeout (hcalm.resolve_left hrunning)
        exact ⟨hreset.sent, hreset.next, hreset.increasing⟩
  | stop => exact ⟨h.sent, h.next, h.increasing⟩

theorem Apart.run {calls : List HandshakeCall} (h : s.Apart timeout) (htimeout : 0 ≤ timeout)
    (hcalm : s.Throughout timeout (Calm timeout) calls) (hticks : s.Throughout timeout (Ticks timeout) calls) :
    (s.run timeout calls).Apart timeout := by
  induction calls generalizing s with
  | nil => exact h
  | cons call calls ih => exact ih (h.step htimeout hcalm.1 hticks.1) hcalm.2 hticks.2

end HandshakeTimes

-- The limiter lets the next initiation pass a rekey timeout after the last,
-- which is more than what the whitener cuts off.
theorem initiation_stamps_increase (timings : Timings) (lastSentHandshake : Int) (isRunning : Bool)
    (latest : Nat) (hlast : lastSentHandshake ≤ latest) (calls : List HandshakeCall) :
    let s : HandshakeTimes := ⟨lastSentHandshake, isRunning, latest, []⟩
    let timeout := (rekeyMinTimeout timings).toInt
    s.Throughout timeout (HandshakeTimes.Ticks timeout) calls →
    s.Throughout timeout (HandshakeTimes.Calm timeout) calls →
    (s.run timeout calls).stamped.Pairwise fun later earlier =>
      (stamp later).after (stamp earlier) = true := by
  intro s timeout hticks hcalm
  have htimeout : 0 ≤ timeout := by
    simp only [timeout, rekeyMinTimeout, toInt_seconds]
    omega
  have happart : s.Apart timeout := ⟨hlast, fun t ht => absurd ht List.not_mem_nil, .nil⟩
  exact (happart.run htimeout hcalm hticks).increasing

theorem initiation_stamps_increase_twice :
    let s : HandshakeTimes := ⟨0, true, 10000000000, []⟩
    let calls : List HandshakeCall :=
      [.sendHandshakeInitiation 10000000001 10000000002 10000000003 10000000004 true,
        .sendHandshakeInitiation 10000000005 0 0 0 true,
        .sendHandshakeInitiation 15000000004 15000000005 15000000006 15000000007 true]
    (s.run (rekeyMinTimeout {}).toInt calls).stamped = [15000000007, 10000000004] ∧
    (s.run (rekeyMinTimeout {}).toInt calls).stamped.Pairwise
      fun later earlier => (stamp later).after (stamp earlier) = true := by
  refine ⟨by decide +kernel, initiation_stamps_increase {} 0 true 10000000000 (by decide) _ ?_ ?_⟩
  · simp only [HandshakeTimes.Throughout, HandshakeTimes.Ticks]
    decide +kernel
  · simp only [HandshakeTimes.Throughout, HandshakeTimes.Calm]
    decide +kernel

theorem initiation_stamp_repeated :
    let s : HandshakeTimes := ⟨0, true, 10000000000, []⟩
    let timeout := (rekeyMinTimeout newDevice.timings).toInt
    let calls : List HandshakeCall :=
      [.sendHandshakeInitiation 10000000001 10000000002 10000000003 10000000004 true,
        .expireCurrentKeypairs 10001000000,
        .sendHandshakeInitiation 10001000001 10001000002 10001000003 10001000004 true]
    s.Throughout timeout (HandshakeTimes.Ticks timeout) calls ∧
    (s.run timeout calls).stamped = [10001000004, 10000000004] ∧
    (stamp 10001000004).after (stamp 10000000004) = false := by
  refine ⟨?_, by decide +kernel, by decide +kernel⟩
  simp only [HandshakeTimes.Throughout, HandshakeTimes.Ticks]
  decide +kernel

end StarlingWg.Device
