import StarlingWg.Device.Authentication

namespace StarlingWg.Device

open CookieGenerator List Function Option

section

-- BLAKE2s-256, the sealing side of XChaCha20-Poly1305, and the size of a MAC.
structure CookieSeal (p : Primitives) where
  hash : Bytes → Bytes
  xaeadSeal : (key nonce plain ad : Bytes) → Bytes
  open_seal : ∀ key nonce plain ad, p.xaeadOpen key nonce (xaeadSeal key nonce plain ad) ad = some plain
  mac_length : ∀ key body, (p.mac key body).length = 16

variable {p : Primitives}

-- No other associated data of the same length opens a sealed text.
def CookieSeal.Ideal (c : CookieSeal p) : Prop :=
  ∀ key nonce plain ad ad', ad'.length = ad.length → ad' ≠ ad →
    p.xaeadOpen key nonce (c.xaeadSeal key nonce plain ad) ad' = none

structure CookieIssuer extends CookieChecker where
  encryptionKey : Bytes

def wgLabelMAC1 : Bytes := "mac1----".toUTF8.data.toList

def wgLabelCookie : Bytes := "cookie--".toUTF8.data.toList

variable (c : CookieSeal p)

-- Times count from the zero time.
def CookieIssuer.init (pk : Bytes) : CookieIssuer where
  mac1Key := c.hash (wgLabelMAC1 ++ pk)
  secret := List.replicate 32 0
  secretSet := 0
  encryptionKey := c.hash (wgLabelCookie ++ pk)

def CookieGenerator.init (pk : Bytes) : CookieGenerator where
  mac1Key := c.hash (wgLabelMAC1 ++ pk)
  cookie := List.replicate 16 0
  cookieSet := 0
  lastMAC1 := none
  encryptionKey := c.hash (wgLabelCookie ++ pk)

-- The nonce and the cookie of the reply to a message, and the checker left. The
-- random bytes are a new secret, should one be due, and the nonce.
def CookieIssuer.reply (st : CookieIssuer) (now : Int) (secret nonce msg src : Bytes) :
    (Bytes × Bytes) × CookieIssuer :=
  let st := { st with toCookieChecker := st.toCookieChecker.createReply now secret }
  let smac2 := msg.length - 16
  let smac1 := smac2 - 16
  ((nonce, c.xaeadSeal st.encryptionKey nonce (p.mac st.secret src) (field msg smac1 smac2)), st)

variable (p)

def CookieGenerator.macs (st : CookieGenerator) (now : Int) (msg : Bytes) : Bytes :=
  let smac2 := msg.length - 16
  let smac1 := smac2 - 16
  let signed := msg.take smac1 ++ p.mac st.mac1Key (msg.take smac1)
  signed ++ if now - st.cookieSet > cookieRefreshTime then msg.drop smac2 else p.mac st.cookie signed

def CookieGenerator.consumes (st : CookieGenerator) (nonce cookie : Bytes) : Bool :=
  (st.lastMAC1.bind fun ad => p.xaeadOpen st.encryptionKey nonce cookie ad).isSome

inductive CookieCall
  | addMacs (msg : Bytes)
  | createReply (secret : Bytes)

def CookieCall.step (s : CookieIssuer × CookieGenerator) (now : Int) :
    CookieCall → CookieIssuer × CookieGenerator
  | .addMacs msg => (s.1, s.2.addMacs p msg)
  | .createReply secret =>
    ({ s.1 with toCookieChecker := s.1.toCookieChecker.createReply now secret }, s.2)

def CookieCall.run (s : CookieIssuer × CookieGenerator) (calls : List (Int × CookieCall)) :
    CookieIssuer × CookieGenerator :=
  calls.foldl (fun s call => call.2.step p s call.1) s

variable {p c} {st : CookieGenerator} {msg : Bytes}

theorem mac_fields (body : Bytes) {mac1 mac2 : Bytes} (h1 : mac1.length = 16) (h2 : mac2.length = 16) :
    let msg := body ++ (mac1 ++ mac2)
    msg.take (msg.length - 16 - 16) = body ∧
      field msg (msg.length - 16 - 16) (msg.length - 16) = mac1 ∧
      msg.take (msg.length - 16) = body ++ mac1 ∧ msg.drop (msg.length - 16) = mac2 := by
  have hsmac2 : (body ++ (mac1 ++ mac2)).length - 16 = (body ++ mac1).length := by
    simp only [length_append]
    omega
  have hsmac1 : (body ++ mac1).length - 16 = body.length := by
    rw [length_append]
    omega
  refine ⟨?_, ?_, ?_, ?_⟩
  · rw [hsmac2, hsmac1, take_left]
  · rw [hsmac2, hsmac1, field, ← append_assoc, take_left, drop_left]
  · rw [hsmac2, ← append_assoc, take_left]
  · rw [hsmac2, ← append_assoc, drop_left]

theorem CookieGenerator.macs_eq (st : CookieGenerator) (c : CookieSeal p) (hlen : 32 ≤ msg.length)
    (now : Int) :
    let body := msg.take (msg.length - 32)
    let mac1 := p.mac st.mac1Key body
    ∃ mac2, mac2.length = 16 ∧ st.macs p now msg = body ++ (mac1 ++ mac2) ∧
      (now - st.cookieSet ≤ cookieRefreshTime → mac2 = p.mac st.cookie (body ++ mac1)) := by
  intro body mac1
  refine ⟨if now - st.cookieSet > cookieRefreshTime then msg.drop (msg.length - 16)
    else p.mac st.cookie (body ++ mac1), ?_, ?_, fun hfresh => if_neg (by omega)⟩
  · split
    · rw [length_drop]
      omega
    · exact c.mac_length _ _
  · exact append_assoc ..

theorem CookieChecker.checkMAC1_macs {checker : CookieChecker} (c : CookieSeal p)
    (hkey : checker.mac1Key = st.mac1Key) (hlen : 32 ≤ msg.length) (now : Int) :
    checker.checkMAC1 p (st.macs p now msg) = true := by
  obtain ⟨mac2, h2, hmacs, -⟩ := st.macs_eq c hlen now
  obtain ⟨hbody, hfield, -⟩ := mac_fields _ (c.mac_length _ _) h2
  rw [hmacs, checkMAC1, hbody, hfield, hkey]
  exact beq_self_eq_true _

structure CookieShared (p : Primitives) (src : Bytes) (set : Int)
    (s : CookieIssuer × CookieGenerator) : Prop where
  mac1Key : s.1.mac1Key = s.2.mac1Key
  secretSet : s.1.secretSet = set
  cookie : s.2.cookie = p.mac s.1.secret src
  cookieSet : set ≤ s.2.cookieSet

section

variable {src : Bytes} {set : Int} {s : CookieIssuer × CookieGenerator}

theorem CookieShared.step (h : CookieShared p src set s) {now : Int}
    (hnow : now - set ≤ cookieRefreshTime) (call : CookieCall) :
    CookieShared p src set (call.step p s now) := by
  cases call with
  | addMacs msg => exact ⟨h.mac1Key, h.secretSet, h.cookie, h.cookieSet⟩
  | createReply secret =>
    have hsame : s.1.toCookieChecker.createReply now secret = s.1.toCookieChecker :=
      if_neg (by rw [h.secretSet]; omega)
    rw [CookieCall.step, hsame]
    exact h

theorem CookieShared.run (h : CookieShared p src set s) (calls : List (Int × CookieCall))
    (hcalls : ∀ call ∈ calls, call.1 - set ≤ cookieRefreshTime) :
    CookieShared p src set (CookieCall.run p s calls) := by
  induction calls generalizing s with
  | nil => exact h
  | cons call calls ih =>
    rw [forall_mem_cons] at hcalls
    exact ih (h.step hcalls.1 call.2) hcalls.2

theorem CookieShared.checkMAC2 (h : CookieShared p src set s) (c : CookieSeal p) {now later : Int}
    (hnow : now - set ≤ cookieRefreshTime) (hlater : later - set ≤ cookieRefreshTime)
    (hlen : 32 ≤ msg.length) : s.1.checkMAC2 p later (s.2.macs p now msg) src = true := by
  have hfresh : now - s.2.cookieSet ≤ cookieRefreshTime := by
    have := h.cookieSet
    omega
  obtain ⟨mac2, h2, hmacs, hmac2⟩ := s.2.macs_eq c hlen now
  obtain ⟨-, -, htake, hdrop⟩ := mac_fields (msg.take (msg.length - 32))
    (c.mac_length s.2.mac1Key (msg.take (msg.length - 32))) h2
  rw [hmacs, CookieChecker.checkMAC2, if_neg (by rw [h.secretSet]; omega)]
  simp only [htake, hdrop]
  rw [hmac2 hfresh, h.cookie, beq_self_eq_true]

end

structure CookieIssuer.For (st : CookieIssuer) (c : CookieSeal p) (pk : Bytes) : Prop where
  mac1Key : st.mac1Key = (init c pk).mac1Key
  encryptionKey : st.encryptionKey = (init c pk).encryptionKey

structure CookieGenerator.For (st : CookieGenerator) (c : CookieSeal p) (pk : Bytes) : Prop where
  mac1Key : st.mac1Key = (init c pk).mac1Key
  encryptionKey : st.encryptionKey = (init c pk).encryptionKey

theorem createReply_frame (st : CookieChecker) (now : Int) (secret : Bytes) :
    (st.createReply now secret).mac1Key = st.mac1Key := by
  unfold CookieChecker.createReply
  split <;> rfl

-- With any calls between the reply and the next message.
theorem cookie_exchange (c : CookieSeal p) (pk : Bytes) (issuer : CookieIssuer)
    (hissuer : issuer.For c pk) (generator : CookieGenerator) (hgenerator : generator.For c pk)
    (now : Int) (msg : Bytes) (hlen : 32 ≤ msg.length) :
    let sent := generator.macs p now msg
    let asked := generator.addMacs p msg
    issuer.checkMAC1 p sent = true ∧
    (∀ (replied consumed : Int) (secret nonce src : Bytes),
      let answer := issuer.reply c replied secret nonce sent src
      answer.2.secretSet ≤ consumed →
      asked.consumes p answer.1.1 answer.1.2 = true ∧
      ∀ (calls : List (Int × CookieCall)) (signed checked : Int) (next : Bytes),
        (∀ call ∈ calls, call.1 - answer.2.secretSet ≤ cookieRefreshTime) →
        signed - answer.2.secretSet ≤ cookieRefreshTime →
        checked - answer.2.secretSet ≤ cookieRefreshTime → 32 ≤ next.length →
        let last := CookieCall.run p
          (answer.2, asked.consumeReply p consumed answer.1.1 answer.1.2) calls
        last.1.checkMAC1 p (last.2.macs p signed next) = true ∧
        last.1.checkMAC2 p checked (last.2.macs p signed next) src = true) ∧
    (c.Ideal → ∀ (replied consumed : Int) (secret nonce src other : Bytes), 32 ≤ other.length →
      let answer := issuer.reply c replied secret nonce other src
      asked.lastMAC1 ≠ some (field other (other.length - 16 - 16) (other.length - 16)) →
      asked.consumes p answer.1.1 answer.1.2 = false ∧
      asked.consumeReply p consumed answer.1.1 answer.1.2 = asked) := by
  intro sent asked
  have hkey : issuer.mac1Key = generator.mac1Key := hissuer.mac1Key.trans hgenerator.mac1Key.symm
  have hseal : issuer.encryptionKey = generator.encryptionKey :=
    hissuer.encryptionKey.trans hgenerator.encryptionKey.symm
  refine ⟨CookieChecker.checkMAC1_macs c hkey hlen now, ?_, ?_⟩
  · intro replied consumed secret nonce src answer hconsumed
    obtain ⟨mac2, h2, hmacs, -⟩ := generator.macs_eq c hlen now
    have hopen : p.xaeadOpen asked.encryptionKey answer.1.1 answer.1.2
        (p.mac generator.mac1Key (msg.take (msg.length - 32))) =
          some (p.mac answer.2.secret src) := by
      have hfield := (mac_fields (msg.take (msg.length - 32))
        (c.mac_length generator.mac1Key (msg.take (msg.length - 32))) h2).2.1
      rw [← hmacs] at hfield
      rw [← hfield]
      show p.xaeadOpen generator.encryptionKey nonce (c.xaeadSeal issuer.encryptionKey _ _ _) _ = _
      rw [hseal]
      exact c.open_seal ..
    refine ⟨by simp only [consumes]; exact congrArg Option.isSome hopen, ?_⟩
    intro calls signed checked next hcalls hsigned hchecked hnext last
    have hshared : CookieShared p src answer.2.secretSet
        (answer.2, asked.consumeReply p consumed answer.1.1 answer.1.2) := by
      have htold : asked.consumeReply p consumed answer.1.1 answer.1.2 =
          { asked with cookie := p.mac answer.2.secret src, cookieSet := consumed } := by
        simp only [consumeReply, asked, addMacs] at hopen ⊢
        rw [hopen]
      rw [htold]
      exact ⟨(createReply_frame ..).trans hkey, rfl, rfl, hconsumed⟩
    have hlast := hshared.run calls hcalls
    exact ⟨CookieChecker.checkMAC1_macs c hlast.mac1Key hnext signed,
      hlast.checkMAC2 c hsigned hchecked hnext⟩
  · intro hideal replied consumed secret nonce src other hother answer hne
    have hlength : (field other (other.length - 16 - 16) (other.length - 16)).length = 16 := by
      rw [field, length_drop, length_take]
      omega
    have hclosed : p.xaeadOpen asked.encryptionKey answer.1.1 answer.1.2
        (p.mac generator.mac1Key (msg.take (msg.length - 32))) = none := by
      show p.xaeadOpen generator.encryptionKey nonce (c.xaeadSeal issuer.encryptionKey _ _ _) _ = _
      rw [hseal]
      exact hideal _ _ _ _ _ ((c.mac_length _ _).trans hlength.symm) fun h => hne (congrArg some h)
    simp only [consumes, consumeReply, asked, addMacs, bind_some] at hclosed ⊢
    rw [hclosed]
    exact ⟨rfl, rfl⟩

def toyPrimitives : Primitives :=
  { Receiver.samplePrimitives with
    xaeadOpen := fun _ _ cipher ad =>
      if cipher.drop (cipher.length - ad.length) = ad then some (cipher.take (cipher.length - ad.length))
      else none
    mac := fun key _ => (key ++ List.replicate 16 0).take 16 }

def toySeal : CookieSeal toyPrimitives where
  hash := id
  xaeadSeal _ _ plain ad := plain ++ ad
  open_seal _ _ plain ad := by simp [toyPrimitives]
  mac_length key body := by simp [toyPrimitives]

theorem cookie_exchange_toy :
    let start := init toySeal [7]
    let msg := List.replicate 40 (1 : UInt8)
    let answer := (CookieIssuer.init toySeal [7]).reply toySeal 200000000000 [3] [5]
      (start.macs toyPrimitives 200000000000 msg) [9]
    let told := (start.addMacs toyPrimitives msg).consumeReply toyPrimitives 210000000000
      answer.1.1 answer.1.2
    answer.2.checkMAC2 toyPrimitives 230000000000
      (told.macs toyPrimitives 220000000000 msg) [9] = true :=
  (((cookie_exchange toySeal [7] (.init toySeal [7]) ⟨rfl, rfl⟩ (.init toySeal [7]) ⟨rfl, rfl⟩
    200000000000 (List.replicate 40 1) (by decide)).2.1 200000000000 210000000000 [3] [5] [9]
    (by decide)).2 [] 220000000000 230000000000 (List.replicate 40 1) (by simp) (by decide)
    (by decide) (by decide)).2

end

section

-- Where a worker is in CreateReply: not in it, before the write lock with the
-- secret found stale, or after it.
inductive ReplyPhase
  | idle
  | stale (src : Bytes)
  | renewed (src : Bytes)

structure IssuedCookie where
  src : Bytes
  cookie : Bytes
  secretSet : Int

structure ReplyWorkers (ι : Type) where
  checker : CookieChecker
  phase : ι → ReplyPhase
  clock : Int
  issued : List IssuedCookie

-- The locked sections of CreateReply. The first also derives the cookie when
-- the secret is not stale, without giving up the read lock.
inductive ReplySection (ι : Type)
  | test (i : ι) (src : Bytes)
  | renew (i : ι) (secret : Bytes)
  | derive (i : ι)

variable {ι : Type} [DecidableEq ι] (p : Primitives)

def ReplyWorkers.issue (s : ReplyWorkers ι) (i : ι) (src : Bytes) : ReplyWorkers ι :=
  { s with
    phase := update s.phase i .idle
    issued := ⟨src, p.mac s.checker.secret src, s.checker.secretSet⟩ :: s.issued }

def ReplyWorkers.step (s : ReplyWorkers ι) (now : Int) : ReplySection ι → Option (ReplyWorkers ι)
  | .test i src =>
    match s.phase i with
    | .idle =>
      if now - s.checker.secretSet > cookieRefreshTime then
        some { s with clock := now, phase := update s.phase i (.stale src) }
      else some ({ s with clock := now }.issue p i src)
    | _ => none
  | .renew i secret =>
    match s.phase i with
    | .stale src => some { s with
        clock := now
        checker := { s.checker with secret := secret, secretSet := now }
        phase := update s.phase i (.renewed src) }
    | _ => none
  | .derive i =>
    match s.phase i with
    | .renewed src => some ({ s with clock := now }.issue p i src)
    | _ => none

def ReplyWorkers.run (allowed : ReplyWorkers ι → Int → ReplySection ι → Bool) (s : ReplyWorkers ι) :
    List (Int × ReplySection ι) → Option (ReplyWorkers ι)
  | [] => some s
  | (now, sec) :: sections =>
    if s.clock ≤ now ∧ allowed s now sec then (s.step p now sec).bind fun s => s.run allowed sections
    else none

-- No worker renews a secret that another has renewed since it found it stale.
def renewsStale (s : ReplyWorkers ι) (now : Int) : ReplySection ι → Bool
  | .renew _ _ => now - s.checker.secretSet > cookieRefreshTime
  | _ => true

def ReplyWorkers.Valid (s : ReplyWorkers ι) : Prop :=
  ∀ x ∈ s.issued, x.secretSet = s.checker.secretSet ∧ x.cookie = p.mac s.checker.secret x.src ∨
    cookieRefreshTime < s.clock - x.secretSet

variable {p} {s s' : ReplyWorkers ι}

theorem ReplyWorkers.Valid.issue (h : s.Valid p) {now : Int} (hnow : s.clock ≤ now) (i : ι)
    (src : Bytes) : ({ s with clock := now }.issue p i src).Valid p := by
  intro x hx
  rcases mem_cons.mp hx with rfl | hx
  · exact .inl ⟨rfl, rfl⟩
  · refine (h x hx).imp_right fun hold => ?_
    show cookieRefreshTime < now - x.secretSet
    omega

theorem ReplyWorkers.Valid.step (h : s.Valid p) {now : Int} (hnow : s.clock ≤ now)
    {sec : ReplySection ι} (hstale : renewsStale s now sec = true)
    (hstep : s.step p now sec = some s') : s'.Valid p := by
  cases sec with
  | test i src =>
    cases hphase : s.phase i with
    | idle =>
      simp only [ReplyWorkers.step, hphase] at hstep
      by_cases hold : now - s.checker.secretSet > cookieRefreshTime
      · rw [if_pos hold] at hstep
        cases hstep
        refine fun x hx => (h x hx).imp_right fun hx => ?_
        show cookieRefreshTime < now - x.secretSet
        omega
      · rw [if_neg hold] at hstep
        cases hstep
        exact h.issue hnow i src
    | _ => simp [ReplyWorkers.step, hphase] at hstep
  | renew i secret =>
    cases hphase : s.phase i with
    | stale src =>
      simp only [ReplyWorkers.step, hphase] at hstep
      cases hstep
      refine fun x hx => .inr ?_
      show cookieRefreshTime < now - x.secretSet
      have hold := of_decide_eq_true hstale
      rcases h x hx with ⟨hset, -⟩ | hx <;> omega
    | _ => simp [ReplyWorkers.step, hphase] at hstep
  | derive i =>
    cases hphase : s.phase i with
    | renewed src =>
      simp only [ReplyWorkers.step, hphase] at hstep
      cases hstep
      exact h.issue hnow i src
    | _ => simp [ReplyWorkers.step, hphase] at hstep

theorem ReplyWorkers.Valid.run {sections : List (Int × ReplySection ι)} (h : s.Valid p)
    (hrun : s.run p renewsStale sections = some s') : s'.Valid p := by
  induction sections generalizing s with
  | nil =>
    cases hrun
    exact h
  | cons first sections ih =>
    obtain ⟨now, sec⟩ := first
    simp only [ReplyWorkers.run, ite_none_right_eq_some] at hrun
    obtain ⟨⟨hnow, hallow⟩, hrun⟩ := hrun
    obtain ⟨mid, hstep, hrest⟩ := bind_eq_some_iff.mp hrun
    exact ih (h.step hnow hallow hstep) hrest

-- The code does not look again at the age under the write lock.
theorem issued_cookie_accepted (checker : CookieChecker) (clock : Int)
    (sections : List (Int × ReplySection ι)) (last : ReplyWorkers ι)
    (hrun : ReplyWorkers.run p renewsStale ⟨checker, fun _ => .idle, clock, []⟩ sections = some last) :
    ∀ x ∈ last.issued, ∀ now, last.clock ≤ now → now ≤ x.secretSet + cookieRefreshTime →
      ∀ msg : Bytes, msg.drop (msg.length - 16) = p.mac x.cookie (msg.take (msg.length - 16)) →
        last.checker.checkMAC2 p now msg x.src = true := by
  intro x hx now hnow hfresh msg hmac
  have hvalid := ReplyWorkers.Valid.run (fun _ hx => by cases hx) hrun
  obtain ⟨hset, hcookie⟩ : x.secretSet = last.checker.secretSet ∧
      x.cookie = p.mac last.checker.secret x.src := by
    rcases hvalid x hx with hx | hold
    · exact hx
    · omega
  rw [CookieChecker.checkMAC2, if_neg (by omega)]
  simp only [hmac, hcookie, beq_self_eq_true]

theorem issued_cookie_accepted_renewed :
    let sections : List (Int × ReplySection Bool) :=
      [(200000000000, .test false [9]), (200000000001, .renew false [3]), (200000000002, .test true [8]),
        (200000000003, .derive false)]
    ∃ (last : ReplyWorkers Bool) (x y : IssuedCookie),
      ReplyWorkers.run toyPrimitives renewsStale ⟨⟨[], [], 0⟩, fun _ => .idle, 0, []⟩ sections = some last ∧
      last.issued = [x, y] ∧ x.src = [9] ∧ y.src = [8] ∧
      last.checker.checkMAC2 toyPrimitives 200000000009 (3 :: List.replicate 15 0) x.src = true := by
  intro sections
  exact ⟨_, _, _, rfl, rfl, rfl, rfl, issued_cookie_accepted ⟨[], [], 0⟩ 0 sections _ rfl _
    mem_cons_self 200000000009 (by decide) (by decide) (3 :: List.replicate 15 0) (by decide)⟩

theorem issued_cookie_refused :
    ∃ (last : ReplyWorkers Bool) (x : IssuedCookie) (msg : Bytes),
      ReplyWorkers.run toyPrimitives (fun _ _ _ => true) ⟨⟨[], [], 0⟩, fun _ => .idle, 0, []⟩
        [(200000000000, .test false [9]), (200000000000, .test true [8]),
          (200000000001, .renew false [3]), (200000000002, .derive false),
          (200000000003, .renew true [4])] = some last ∧
      x ∈ last.issued ∧ last.clock ≤ x.secretSet + cookieRefreshTime ∧
      msg.drop (msg.length - 16) = toyPrimitives.mac x.cookie (msg.take (msg.length - 16)) ∧
      last.checker.checkMAC2 toyPrimitives last.clock msg x.src = false :=
  ⟨_, _, 3 :: List.replicate 15 0, rfl, mem_cons_self, by decide, by decide, by decide⟩

end

end StarlingWg.Device
