import StarlingWg.Device.Classification

namespace StarlingWg.Device

open Int64

-- time.Duration: nanoseconds in an int64.
abbrev Duration := Int64

def nanosecondsPerSecond : Nat := 1000000000

def nanosecondsPerMillisecond : Nat := 1000000

-- time.Duration(n) * unit.
def ticks (unit : Nat) (n : UInt32) : Duration := .ofNat n.toNat * .ofNat unit

def seconds (n : UInt32) : Duration := ticks nanosecondsPerSecond n

def milliseconds (n : UInt32) : Duration := ticks nanosecondsPerMillisecond n

def rekeyAfterTime : UInt32 := 120

def rekeyTimeout : UInt32 := 5

def rejectAfterSec : UInt32 := 180

def keepaliveTimeout : UInt32 := 10

structure Draws where
  rekeyAfterTime : UInt32
  rekeyTimeout : UInt32
  rejectAfterTime : UInt32
  keepaliveTimeout : UInt32
  persistentKeepalive : UInt32
  jitterMs : UInt32

def configured (range : UintRange) (default value : UInt32) : UInt32 :=
  if range = ⟨0, 0⟩ then default else value

section

variable (timings : Timings) (draws : Draws)

def retransmitHandshakeTimeout : Duration :=
  seconds (configured timings.rekeyTimeoutSec rekeyTimeout draws.rekeyTimeout)

def sendKeepaliveTimeout : Duration :=
  seconds (configured timings.keepaliveTimeoutSec keepaliveTimeout draws.keepaliveTimeout)

def newHandshakeTimeout : Duration :=
  seconds (configured timings.keepaliveTimeoutSec keepaliveTimeout timings.keepaliveTimeoutSec.hi) +
    seconds (configured timings.rekeyTimeoutSec rekeyTimeout draws.rekeyTimeout)

def keyRefreshTimeoutSending : Duration :=
  seconds (configured timings.rekeyAfterTimeSec rekeyAfterTime draws.rekeyAfterTime)

def keyRefreshTimeoutReceiving : Duration :=
  let timeout := seconds (configured timings.rejectAfterTimeSec rejectAfterSec draws.rejectAfterTime) -
    seconds (configured timings.keepaliveTimeoutSec keepaliveTimeout timings.keepaliveTimeoutSec.lo) -
    seconds (configured timings.rekeyTimeoutSec rekeyTimeout timings.rekeyTimeoutSec.lo)
  if timeout < 0 then 0 else timeout

def keychainExpireTime : Duration :=
  seconds (configured timings.rejectAfterTimeSec rejectAfterSec timings.rejectAfterTimeSec.hi)

def rekeyMinTimeout : Duration :=
  seconds (configured timings.rekeyTimeoutSec rekeyTimeout timings.rekeyTimeoutSec.lo)

end

-- The durations that the code passes to Timer.Mod, and those it compares
-- the age of a keypair or of the last handshake with.
inductive Delay where
  | retransmitHandshake
  | sendKeepalive
  | newHandshake
  | zeroKeyMaterial
  | persistentKeepalive
  | keyRefreshSending
  | keyRefreshReceiving
  | keychainExpire
  | rekeyMin
  | handshakeReset
  deriving DecidableEq

def Delay.duration (timings : Timings) (draws : Draws) : Delay → Duration
  | .retransmitHandshake => retransmitHandshakeTimeout timings draws + milliseconds draws.jitterMs
  | .sendKeepalive => sendKeepaliveTimeout timings draws
  | .newHandshake => newHandshakeTimeout timings draws + milliseconds draws.jitterMs
  | .zeroKeyMaterial => keychainExpireTime timings * 3
  | .persistentKeepalive => seconds draws.persistentKeepalive
  | .keyRefreshSending => keyRefreshTimeoutSending timings draws
  | .keyRefreshReceiving => keyRefreshTimeoutReceiving timings draws
  | .keychainExpire => keychainExpireTime timings
  | .rekeyMin => rekeyMinTimeout timings
  | .handshakeReset => rekeyMinTimeout timings + seconds 1

def Delay.nanoseconds (timings : Timings) (draws : Draws) : Delay → Int
  | .retransmitHandshake =>
    (configured timings.rekeyTimeoutSec rekeyTimeout draws.rekeyTimeout).toNat * 1000000000 +
      draws.jitterMs.toNat * 1000000
  | .sendKeepalive =>
    (configured timings.keepaliveTimeoutSec keepaliveTimeout draws.keepaliveTimeout).toNat *
      1000000000
  | .newHandshake =>
    ((configured timings.keepaliveTimeoutSec keepaliveTimeout timings.keepaliveTimeoutSec.hi).toNat +
      (configured timings.rekeyTimeoutSec rekeyTimeout draws.rekeyTimeout).toNat) * 1000000000 +
      draws.jitterMs.toNat * 1000000
  | .zeroKeyMaterial =>
    3 * ((configured timings.rejectAfterTimeSec rejectAfterSec timings.rejectAfterTimeSec.hi).toNat *
      1000000000)
  | .persistentKeepalive => draws.persistentKeepalive.toNat * 1000000000
  | .keyRefreshSending =>
    (configured timings.rekeyAfterTimeSec rekeyAfterTime draws.rekeyAfterTime).toNat * 1000000000
  | .keyRefreshReceiving =>
    max 0 (((configured timings.rejectAfterTimeSec rejectAfterSec draws.rejectAfterTime).toNat -
      (configured timings.keepaliveTimeoutSec keepaliveTimeout timings.keepaliveTimeoutSec.lo).toNat -
      (configured timings.rekeyTimeoutSec rekeyTimeout timings.rekeyTimeoutSec.lo).toNat : Int) *
      1000000000)
  | .keychainExpire =>
    (configured timings.rejectAfterTimeSec rejectAfterSec timings.rejectAfterTimeSec.hi).toNat *
      1000000000
  | .rekeyMin =>
    (configured timings.rekeyTimeoutSec rekeyTimeout timings.rekeyTimeoutSec.lo).toNat * 1000000000
  | .handshakeReset =>
    ((configured timings.rekeyTimeoutSec rekeyTimeout timings.rekeyTimeoutSec.lo).toNat + 1) *
      1000000000

theorem toInt_of_range {n : Int} (h : -9223372036854775808 ≤ n ∧ n < 9223372036854775808) :
    n.bmod (2 ^ 64) = n :=
  Int.bmod_eq_of_le (by omega) (by omega)

theorem toInt_ticks (unit : Nat) (n : UInt32) (h : unit ≤ nanosecondsPerSecond) :
    (ticks unit n).toInt = n.toNat * unit := by
  have hn := n.toNat_lt
  have hbound : n.toNat * unit ≤ 4294967295 * 1000000000 := Nat.mul_le_mul (by omega) h
  rw [nanosecondsPerSecond] at h
  rw [ticks, toInt_mul, toInt_ofNat_of_lt (by omega), toInt_ofNat_of_lt (by omega)]
  exact toInt_of_range (by omega)

@[simp] theorem toInt_seconds (n : UInt32) : (seconds n).toInt = n.toNat * 1000000000 :=
  toInt_ticks _ n (by decide)

@[simp] theorem toInt_milliseconds (n : UInt32) : (milliseconds n).toInt = n.toNat * 1000000 :=
  toInt_ticks _ n (by decide)

theorem toInt_seconds_sub_sub (a b c : UInt32) :
    (seconds a - seconds b - seconds c).toInt = (a.toNat - b.toNat - c.toNat : Int) * 1000000000 := by
  have ha := a.toNat_lt
  have hb := b.toNat_lt
  have hc := c.toNat_lt
  have hfirst : (seconds a - seconds b).toInt = (a.toNat - b.toNat : Int) * 1000000000 := by
    rw [toInt_sub, toInt_seconds, toInt_seconds, toInt_of_range (by omega)]
    omega
  rw [toInt_sub, hfirst, toInt_seconds, toInt_of_range (by omega)]
  omega

section

variable {timings : Timings} {draws : Draws}

theorem toInt_newHandshakeTimeout : (newHandshakeTimeout timings draws).toInt =
    ((configured timings.keepaliveTimeoutSec keepaliveTimeout timings.keepaliveTimeoutSec.hi).toNat +
      (configured timings.rekeyTimeoutSec rekeyTimeout draws.rekeyTimeout).toNat) * 1000000000 := by
  have hkeepalive := (configured timings.keepaliveTimeoutSec keepaliveTimeout
    timings.keepaliveTimeoutSec.hi).toNat_lt
  have hrekey := (configured timings.rekeyTimeoutSec rekeyTimeout draws.rekeyTimeout).toNat_lt
  rw [newHandshakeTimeout, toInt_add, toInt_seconds, toInt_seconds, toInt_of_range (by omega)]
  omega

theorem toInt_keyRefreshTimeoutReceiving : (keyRefreshTimeoutReceiving timings draws).toInt =
    Delay.nanoseconds timings draws .keyRefreshReceiving := by
  rw [keyRefreshTimeoutReceiving, Delay.nanoseconds]
  split
  next hneg =>
    rw [lt_iff_toInt_lt, toInt_seconds_sub_sub, toInt_zero] at hneg
    rw [toInt_zero]
    omega
  next hneg =>
    rw [lt_iff_toInt_lt, toInt_seconds_sub_sub, toInt_zero] at hneg
    rw [toInt_seconds_sub_sub]
    omega

theorem toInt_zeroKeyMaterial : (Delay.duration timings draws .zeroKeyMaterial).toInt =
    Delay.nanoseconds timings draws .zeroKeyMaterial ↔ timings.rejectAfterTimeSec.hi ≤ 3074457345 := by
  rw [Delay.duration, Delay.nanoseconds, keychainExpireTime, toInt_mul, toInt_seconds,
    UInt32.le_iff_toNat_le]
  change Int.bmod (_ * 3) _ = _ ↔ _ ≤ 3074457345
  unfold configured
  split
  next hzero =>
    rw [hzero]
    decide
  next =>
    constructor
    · intro heq
      have hlt := Int.bmod_lt (x := timings.rejectAfterTimeSec.hi.toNat * 1000000000 * 3)
        (m := 2 ^ 64) (by decide)
      omega
    · intro hle
      rw [toInt_of_range (by omega)]
      omega

theorem nanoseconds_nonneg (delay : Delay) : 0 ≤ delay.nanoseconds timings draws := by
  cases delay <;> simp only [Delay.nanoseconds] <;> omega

-- Only the threefold delay can wrap.
theorem delays_exact (timings : Timings) (draws : Draws) (delay : Delay) :
    0 ≤ delay.nanoseconds timings draws ∧
    ((delay.duration timings draws).toInt = delay.nanoseconds timings draws ↔
      (delay = .zeroKeyMaterial → timings.rejectAfterTimeSec.hi ≤ 3074457345)) := by
  refine ⟨nanoseconds_nonneg delay, ?_⟩
  have hrekey := (configured timings.rekeyTimeoutSec rekeyTimeout draws.rekeyTimeout).toNat_lt
  have hmin := (configured timings.rekeyTimeoutSec rekeyTimeout timings.rekeyTimeoutSec.lo).toNat_lt
  have hkeepalive := (configured timings.keepaliveTimeoutSec keepaliveTimeout
    timings.keepaliveTimeoutSec.hi).toNat_lt
  have hjitter := draws.jitterMs.toNat_lt
  cases delay with
  | zeroKeyMaterial => simpa using toInt_zeroKeyMaterial
  | retransmitHandshake =>
    simp only [reduceCtorEq, false_imp_iff, iff_true]
    rw [Delay.duration, retransmitHandshakeTimeout, toInt_add, toInt_seconds,
      toInt_milliseconds, toInt_of_range (by omega), Delay.nanoseconds]
  | newHandshake =>
    simp only [reduceCtorEq, false_imp_iff, iff_true]
    rw [Delay.duration, toInt_add, toInt_newHandshakeTimeout, toInt_milliseconds,
      toInt_of_range (by omega), Delay.nanoseconds]
  | handshakeReset =>
    rw [Delay.duration, rekeyMinTimeout, toInt_add, toInt_seconds, toInt_seconds,
      toInt_of_range (by simp; omega), Delay.nanoseconds]
    simp
    omega
  | keyRefreshReceiving =>
    simp only [reduceCtorEq, false_imp_iff, iff_true]
    exact toInt_keyRefreshTimeoutReceiving
  | sendKeepalive | persistentKeepalive | keyRefreshSending | keychainExpire | rekeyMin =>
    simp only [reduceCtorEq, false_imp_iff, iff_true]
    exact toInt_seconds _

theorem reject_after_time_wraps :
    let run := ipcSetOperation newDevice ⟨[⟨"reject_after_time=4000000000".toList, .ok ()⟩], false⟩
    run.2.isOk = true ∧
    (Delay.duration run.1.timings ⟨0, 0, 0, 0, 0, 0⟩ .zeroKeyMaterial).toInt < 0 := by
  decide +kernel

end

end StarlingWg.Device
