import Mathlib.Data.List.Basic
import Mathlib.Logic.Function.Basic
import Mathlib.Order.Lattice

namespace StarlingWg.Ratelimiter

open List Function Option

-- Times and durations are in nanoseconds.
def packetsPerSecond : Int := 20

def packetsBurstable : Int := 5

def garbageCollectTime : Int := 1000000000

def packetCost : Int := 1000000000 / packetsPerSecond

def maxTokens : Int := packetCost * packetsBurstable

-- Time.Sub stops at the largest duration and at the smallest.
def sub (t u : Int) : Int :=
  max (-9223372036854775808) (min 9223372036854775807 (t - u))

structure RatelimiterEntry where
  lastTime : Int
  tokens : Int
  deriving DecidableEq, Repr

-- The addition is one of int64.
def RatelimiterEntry.refill (e : RatelimiterEntry) (now : Int) : Int :=
  let tokens := (e.tokens + sub now e.lastTime).bmod 18446744073709551616
  if maxTokens < tokens then maxTokens else tokens

-- An address without an entry gets a new one.
def serve (found : Option RatelimiterEntry) (now : Int) : Bool × RatelimiterEntry :=
  match found with
  | none => (true, ⟨now, maxTokens - packetCost⟩)
  | some e =>
    let tokens := e.refill now
    if packetCost < tokens then (true, ⟨now, tokens - packetCost⟩) else (false, ⟨now, tokens⟩)

abbrev Table (α : Type) := α → Option RatelimiterEntry

section

variable {α : Type} [DecidableEq α]

def Table.allow (table : Table α) (ip : α) (now : Int) : Bool × Table α :=
  ((serve (table ip) now).1, update table ip (some (serve (table ip) now).2))

-- The clock is read for every entry.
def Table.cleanup (table : Table α) (now : α → Int) : Table α := fun ip =>
  (table ip).filter fun e => !decide (garbageCollectTime < sub (now ip) e.lastTime)

inductive Call (α : Type)
  | allow (ip : α) (now : Int)
  | cleanup (now : α → Int)

def Call.Reads : Call α → Int → Prop
  | .allow _ now, t => t = now
  | .cleanup now, t => ∃ ip, t = now ip

def Call.isAllow : Call α → Bool
  | .allow _ _ => true
  | .cleanup _ => false

-- The clock does not go back from one call to the other, and does not advance
-- by more than the span.
def Call.Before (span : Int) (c d : Call α) : Prop :=
  ∀ s t, c.Reads s → d.Reads t → s ≤ t ∧ t - s < span

-- What each Allow answers, with its address and its time, and the table left.
def run : Table α → List (Call α) → List (α × Int × Bool) × Table α
  | table, [] => ([], table)
  | table, .allow ip now :: calls =>
    let rest := run (table.allow ip now).2 calls
    ((ip, now, (table.allow ip now).1) :: rest.1, rest.2)
  | table, .cleanup now :: calls => run (table.cleanup now) calls

def Table.empty : Table α := fun _ => none

def allowedIn (ip : α) (start length : Int) : α × Int × Bool → Bool :=
  fun (who, t, ok) => who = ip && ok && decide (start ≤ t ∧ t ≤ start + length)

end

section

-- The longest span in which the sum of tokens and duration stays an int64.
def longest : Int := 9223372036854775808 - maxTokens

def RatelimiterEntry.Sound (e : RatelimiterEntry) : Prop :=
  0 ≤ e.tokens ∧ e.tokens ≤ maxTokens

variable {e : RatelimiterEntry} {now : Int}

theorem maxTokens_eq : maxTokens = 250000000 := rfl

theorem packetCost_eq : packetCost = 50000000 := rfl

theorem longest_eq : longest = 9223372036604775808 := rfl

theorem sub_eq {t u : Int} (hle : u ≤ t) (hshort : t - u < longest) : sub t u = t - u := by
  rw [longest_eq] at hshort
  unfold sub
  omega

theorem RatelimiterEntry.Sound.refill (h : e.Sound) (hle : e.lastTime ≤ now)
    (hshort : now - e.lastTime < longest) :
    e.refill now = min maxTokens (e.tokens + (now - e.lastTime)) := by
  obtain ⟨hlow, hhigh⟩ := h
  rw [maxTokens_eq] at hhigh ⊢
  have hwrap : (e.tokens + (now - e.lastTime)).bmod 18446744073709551616 =
      e.tokens + (now - e.lastTime) := by
    rw [longest_eq] at hshort
    exact Int.bmod_eq_of_le (by omega) (by omega)
  unfold RatelimiterEntry.refill
  rw [sub_eq hle hshort, hwrap, maxTokens_eq]
  dsimp only
  split <;> omega

-- Whatever is read later is neither before the entry nor too long after it.
def Ready (found : Option RatelimiterEntry) (now : Int) : Prop :=
  ∀ e ∈ found, e.Sound ∧ e.lastTime ≤ now ∧ now - e.lastTime < longest

def available (found : Option RatelimiterEntry) (now : Int) : Int :=
  found.elim maxTokens fun e => min maxTokens (e.tokens + (now - e.lastTime))

variable {found : Option RatelimiterEntry}

theorem Ready.serve_eq (h : Ready found now) : serve found now =
    if packetCost < available found now then (true, ⟨now, available found now - packetCost⟩)
    else (false, ⟨now, available found now⟩) := by
  cases found with
  | none => rfl
  | some e =>
    obtain ⟨hsound, hle, hshort⟩ := h e rfl
    rw [serve, hsound.refill hle hshort]
    rfl

theorem Ready.available_bounds (h : Ready found now) :
    0 ≤ available found now ∧ available found now ≤ maxTokens := by
  cases found with
  | none => exact ⟨(by decide : (0 : Int) ≤ maxTokens), Int.le_refl _⟩
  | some e =>
    obtain ⟨⟨hlow, hhigh⟩, hle, -⟩ := h e rfl
    simp only [available, elim_some, maxTokens_eq] at hhigh ⊢
    omega

theorem Ready.served (h : Ready found now) :
    (serve found now).2.lastTime = now ∧ (serve found now).2.Sound := by
  obtain ⟨hlow, hhigh⟩ := h.available_bounds
  rw [h.serve_eq]
  by_cases hmore : packetCost < available found now
  · rw [if_pos hmore]
    refine ⟨rfl, ?_, ?_⟩
    · exact Int.sub_nonneg_of_le (Int.le_of_lt hmore)
    · exact Int.le_trans (Int.sub_le_self _ (by decide)) hhigh
  · rw [if_neg hmore]
    exact ⟨rfl, hlow, hhigh⟩

theorem Ready.serve_collected {e : RatelimiterEntry} (h : Ready (some e) now)
    (hold : garbageCollectTime < now - e.lastTime) : serve none now = serve (some e) now := by
  have hfull : available (some e) now = maxTokens := by
    obtain ⟨hlow, hhigh⟩ := (h e rfl).1
    unfold garbageCollectTime at hold
    simp only [available, elim_some, maxTokens_eq] at hhigh ⊢
    omega
  rw [h.serve_eq, hfull]
  rfl

def credit (start length : Int) (found : Option RatelimiterEntry) : Int :=
  found.elim (maxTokens + length) fun e =>
    if start ≤ e.lastTime then max 0 (e.tokens + (start + length - e.lastTime))
    else maxTokens + length

theorem Ready.credit_le (h : Ready found now) (start : Int) {length : Int} (hlength : 0 ≤ length) :
    (if (serve found now).1 ∧ start ≤ now ∧ now ≤ start + length then packetCost else 0) +
      credit start length (some (serve found now).2) ≤ credit start length found := by
  obtain ⟨hlow, hhigh⟩ := h.available_bounds
  have hmost : credit start length found = maxTokens + length ∨
      start ≤ now ∧ 0 ≤ credit start length found ∧
        available found now + (start + length - now) ≤ credit start length found := by
    cases found with
    | none => exact .inl rfl
    | some e =>
      obtain ⟨-, hle, -⟩ := h e rfl
      by_cases hstart : start ≤ e.lastTime
      · right
        simp only [available, credit, elim_some, if_pos hstart]
        omega
      · left
        simp only [credit, elim_some, if_neg hstart]
  rw [h.serve_eq]
  generalize credit start length found = old at hmost ⊢
  by_cases hmore : packetCost < available found now
  · simp only [if_pos hmore, credit, elim_some, true_and]
    rw [packetCost_eq] at hmore ⊢
    split <;> split <;> omega
  · simp only [if_neg hmore, credit, elim_some, Bool.false_eq_true, false_and, if_false]
    split <;> omega

end

section

variable {α : Type} {table ideal : Table α} {calls : List (Call α)}

def Later (calls : List (Call α)) (t : Int) : Prop :=
  ∃ c ∈ calls, c.Reads t

def Table.Keeps (table : Table α) (calls : List (Call α)) : Prop :=
  ∀ ip, ∀ e ∈ table ip, e.Sound ∧
    ∀ t, Later calls t → e.lastTime ≤ t ∧ t - e.lastTime < longest

def Collected (table ideal : Table α) (calls : List (Call α)) : Prop :=
  ∀ ip, table ip = ideal ip ∨ table ip = none ∧ ∃ e, ideal ip = some e ∧
    ∀ t, Later calls t → garbageCollectTime < t - e.lastTime

theorem Later.cons {c : Call α} {t : Int} (h : Later calls t) : Later (c :: calls) t := by
  obtain ⟨d, hd, hreads⟩ := h
  exact ⟨d, mem_cons_of_mem _ hd, hreads⟩

theorem Later.before {c : Call α} (h : ∀ d ∈ calls, c.Before longest d) {s t : Int}
    (hs : c.Reads s) (ht : Later calls t) : s ≤ t ∧ t - s < longest := by
  obtain ⟨d, hd, hreads⟩ := ht
  exact h d hd s t hs hreads

theorem Table.Keeps.mono {more : List (Call α)} (h : table.Keeps more)
    (hle : ∀ t, Later calls t → Later more t) : table.Keeps calls :=
  fun ip e he => ⟨(h ip e he).1, fun t ht => (h ip e he).2 t (hle t ht)⟩

theorem Table.Keeps.ready (h : table.Keeps calls) {t : Int} (ht : Later calls t) (ip : α) :
    Ready (table ip) t :=
  fun e he => ⟨(h ip e he).1, (h ip e he).2 t ht⟩

theorem Collected.cleanup {now : α → Int} (hk : ideal.Keeps (.cleanup now :: calls))
    (hclock : ∀ d ∈ calls, (Call.cleanup now).Before longest d)
    (h : Collected table ideal (.cleanup now :: calls)) :
    Collected (table.cleanup now) ideal calls := by
  intro ip
  rcases h ip with hsame | ⟨hnone, e, he, hold⟩
  · cases he : table ip with
    | none => exact .inl (by rw [Table.cleanup, ← hsame, he]; rfl)
    | some e =>
      have hmem : ideal ip = some e := hsame.symm.trans he
      by_cases hgone : garbageCollectTime < sub (now ip) e.lastTime
      · refine .inr ⟨by simp [Table.cleanup, he, Option.filter, hgone], e, hmem, fun t ht => ?_⟩
        obtain ⟨hle, hshort⟩ := (hk ip e hmem).2 (now ip) ⟨_, mem_cons_self, ip, rfl⟩
        have hlater := (Later.before hclock ⟨ip, rfl⟩ ht).1
        rw [sub_eq hle hshort] at hgone
        omega
      · exact .inl (by simp [Table.cleanup, he, Option.filter, hgone, hmem])
  · exact .inr ⟨by simp [Table.cleanup, hnone], e, he, fun t ht => hold t ht.cons⟩

theorem Collected.serve {ip : α} {now : Int} (hk : ideal.Keeps (.allow ip now :: calls))
    (h : Collected table ideal (.allow ip now :: calls)) :
    serve (table ip) now = serve (ideal ip) now := by
  have hnow : Later (.allow ip now :: calls) now := ⟨_, mem_cons_self, rfl⟩
  rcases h ip with hsame | ⟨hnone, e, he, hold⟩
  · rw [hsame]
  · have hready := hk.ready hnow ip
    rw [he] at hready
    rw [hnone, he, hready.serve_collected (hold now hnow)]

variable [DecidableEq α]

theorem Table.allow_self (table : Table α) (ip : α) (now : Int) :
    (table.allow ip now).2 ip = some (serve (table ip) now).2 :=
  update_self ..

theorem Table.allow_of_ne (table : Table α) {ip who : α} (h : who ≠ ip) (now : Int) :
    (table.allow ip now).2 who = table who :=
  update_of_ne h ..

theorem Table.Keeps.allow {ip : α} {now : Int} (h : table.Keeps (.allow ip now :: calls))
    (hclock : ∀ d ∈ calls, (Call.allow ip now).Before longest d) :
    (table.allow ip now).2.Keeps calls := by
  intro who e he
  by_cases hwho : who = ip
  · subst hwho
    obtain ⟨htime, hsound⟩ := (h.ready ⟨_, mem_cons_self, rfl⟩ who).served
    obtain rfl : (serve (table who) now).2 = e := by
      simpa [Table.allow_self] using he
    rw [htime]
    exact ⟨hsound, fun t ht => Later.before hclock rfl ht⟩
  · rw [table.allow_of_ne hwho] at he
    exact ⟨(h who e he).1, fun t ht => (h who e he).2 t ht.cons⟩

theorem Collected.allow {ip : α} {now : Int} (hk : ideal.Keeps (.allow ip now :: calls))
    (h : Collected table ideal (.allow ip now :: calls)) :
    Collected (table.allow ip now).2 (ideal.allow ip now).2 calls := by
  intro who
  by_cases hwho : who = ip
  · subst hwho
    left
    rw [Table.allow_self, Table.allow_self, h.serve hk]
  · rw [table.allow_of_ne hwho, ideal.allow_of_ne hwho]
    rcases h who with hsame | ⟨hnone, e, he, hold⟩
    · exact .inl hsame
    · exact .inr ⟨hnone, e, he, fun t ht => hold t ht.cons⟩

theorem run_collected (hclock : calls.Pairwise (Call.Before longest)) (hk : ideal.Keeps calls)
    (h : Collected table ideal calls) :
    (run table calls).1 = (run ideal (calls.filter Call.isAllow)).1 ∧
      Collected (run table calls).2 (run ideal (calls.filter Call.isAllow)).2 [] ∧
      (run ideal (calls.filter Call.isAllow)).2.Keeps [] := by
  induction calls generalizing table ideal with
  | nil => exact ⟨rfl, h, hk⟩
  | cons c calls ih =>
    obtain ⟨hhead, htail⟩ := pairwise_cons.mp hclock
    cases c with
    | allow ip now =>
      obtain ⟨hanswers, hlast⟩ := ih htail (hk.allow hhead) (h.allow hk)
      refine ⟨?_, hlast⟩
      show (ip, now, (serve (table ip) now).1) :: (run (table.allow ip now).2 calls).1 = _
      rw [h.serve hk, hanswers]
      rfl
    | cleanup now => exact ih htail (hk.mono fun _ => Later.cons) (h.cleanup hk hhead)

theorem run_credit (start : Int) {length : Int} (hlength : 0 ≤ length) (ip : α)
    (hclock : calls.Pairwise (Call.Before longest)) (hk : ideal.Keeps calls) :
    packetCost * (run ideal (calls.filter Call.isAllow)).1.countP (allowedIn ip start length) ≤
      credit start length (ideal ip) := by
  induction calls generalizing ideal with
  | nil =>
    show 0 ≤ credit start length (ideal ip)
    cases ideal ip with
    | none => exact Int.add_nonneg (by decide) hlength
    | some e =>
      simp only [credit, elim_some, maxTokens_eq]
      split <;> omega
  | cons c calls ih =>
    obtain ⟨hhead, htail⟩ := pairwise_cons.mp hclock
    cases c with
    | allow who now =>
      have hrest := ih htail (hk.allow hhead)
      have hready := hk.ready ⟨_, mem_cons_self, rfl⟩ who
      show packetCost * (((who, now, (serve (ideal who) now).1) ::
        (run (ideal.allow who now).2 (calls.filter Call.isAllow)).1).countP _ : Nat) ≤ _
      rw [countP_cons]
      by_cases hwho : who = ip
      · subst hwho
        have hpaid := hready.credit_le start hlength
        rw [ideal.allow_self] at hrest
        simp only [allowedIn, decide_true, Bool.true_and, Bool.and_eq_true, decide_eq_true_eq]
        rw [packetCost_eq] at hrest hpaid ⊢
        by_cases hin : (serve (ideal who) now).1 = true ∧ start ≤ now ∧ now ≤ start + length
        · rw [if_pos hin] at hpaid ⊢
          omega
        · rw [if_neg hin] at hpaid ⊢
          omega
      · rw [ideal.allow_of_ne (Ne.symm hwho)] at hrest
        simpa [allowedIn, hwho] using hrest
    | cleanup now => exact ih htail (hk.mono fun _ => Later.cons)

-- Cleanup changes no answer.
theorem run_ideal (calls : List (Call α)) (hclock : calls.Pairwise (Call.Before longest)) :
    (run .empty calls).1 = (run .empty (calls.filter Call.isAllow)).1 ∧
    (∀ ip e, (run .empty calls).2 ip = some e → 0 ≤ e.tokens ∧ e.tokens ≤ maxTokens) ∧
    ∀ ip start length, 0 ≤ length →
      ((run .empty calls).1.countP (allowedIn ip start length) : Int) ≤
        packetsBurstable + length / packetCost := by
  have hk : (Table.empty : Table α).Keeps calls := by
    intro ip e he
    cases he
  obtain ⟨hanswers, hlast, hkept⟩ := run_collected hclock hk fun _ => .inl rfl
  refine ⟨hanswers, fun ip e he => ?_, fun ip start length hlength => ?_⟩
  · rcases hlast ip with hsame | ⟨hnone, -⟩
    · exact (hkept ip e (hsame.symm.trans he)).1
    · rw [hnone] at he
      cases he
  · have hpaid : _ ≤ maxTokens + length := run_credit start hlength ip hclock hk
    rw [maxTokens_eq, packetCost_eq] at hpaid
    rw [hanswers, packetCost_eq, packetsBurstable]
    omega

theorem run_ideal_burst :
    ((run .empty (List.replicate 6 (.allow 7 0) ++ [.cleanup fun _ => 2000000000,
      .allow 7 2000000000])).1.countP (allowedIn 7 0 10) : Int) ≤ packetsBurstable + 10 / packetCost :=
  (run_ideal _ (by simp [List.replicate, Call.Before, Call.Reads, longest_eq])).2.2 7 0 10
    (by decide)

theorem run_overflow :
    let late := longest + packetCost
    (run .empty [.allow 7 0, .allow 7 late]).1 = [(7, 0, true), (7, late, false)] ∧
    (run .empty [.allow 7 0, .cleanup fun _ => late, .allow 7 late]).1 =
      [(7, 0, true), (7, late, true)] := by
  decide

end

end StarlingWg.Ratelimiter
