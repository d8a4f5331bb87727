import Mathlib.Logic.Relation
import StarlingWg.Device.Classification

namespace StarlingWg.Device

open List
open Control (Key)

-- A padding that was loaded for a packet, and whether the new settings were
-- in force then.
structure Captured where
  padding : UInt32
  late : Bool

-- An element in a worker of RoutineEncryption: whether the worker began after
-- the operation, and the type once it is drawn.
structure Job where
  elem : Captured
  late : Bool
  msgType : Option UInt32

structure Built where
  elem : Captured
  late : Bool
  msgType : UInt32
  key : Key

-- `merged` says that the operation has returned. `reader` is what
-- RoutineReadFromTUN loaded before it reads, `allocated` are the elements of
-- SendKeepalive that are not staged yet, `queue` those on their way to a worker.
structure Snapshot where
  merged : Bool
  reader : Captured
  allocated : List Captured
  queue : List Captured
  working : List Job
  sent : List Built

section

variable (old new : Settings)

def Snapshot.settings (s : Snapshot) : Settings := if s.merged then new else old

def Snapshot.load (s : Snapshot) : Captured := ⟨(s.settings old new).paddings.transport, s.merged⟩

inductive Snapshot.Step : Snapshot → Snapshot → Prop
  | merge {s} : Step s { s with merged := true }
  | loadPadding {s} : Step s { s with reader := s.load old new }
  | read {s} : Step s { s with queue := s.queue ++ [s.reader] }
  | newOutboundElement {s} : Step s { s with allocated := s.load old new :: s.allocated }
  | stage {s elem back} (front : List Captured) : s.allocated = front ++ elem :: back →
      Step s { s with allocated := front ++ back, queue := s.queue ++ [elem] }
  | drop {s elem back} (front : List Captured) : s.allocated = front ++ elem :: back →
      Step s { s with allocated := front ++ back }
  | encrypt {s elem back} (front : List Captured) : s.queue = front ++ elem :: back →
      Step s { s with queue := front ++ back, working := ⟨elem, s.merged, none⟩ :: s.working }
  | loadHeader {s back msgType} (front : List Job) (job : Job) : s.working = front ++ job :: back →
      job.msgType = none → (s.settings old new).headers.transport.Picks msgType →
      Step s { s with working := front ++ { job with msgType := some msgType } :: back }
  | loadKey {s back msgType} (front : List Job) (job : Job) : s.working = front ++ job :: back →
      job.msgType = some msgType →
      Step s { s with
        working := front ++ back
        sent := ⟨job.elem, job.late, msgType, (s.settings old new).headerProtectionKey⟩ :: s.sent }

def Snapshot.start : Snapshot := ⟨false, ⟨old.paddings.transport, false⟩, [], [], [], []⟩

def Captured.Ok (merged : Bool) (c : Captured) : Prop :=
  (c.late = true → merged = true) ∧
    c.padding = if c.late then new.paddings.transport else old.paddings.transport

structure Job.Ok (merged : Bool) (job : Job) : Prop where
  elem : job.elem.Ok old new merged
  late : job.late = true → merged = true
  drawn : job.late = true → ∀ t, job.msgType = some t → new.headers.transport.Picks t

structure Built.Ok (built : Built) : Prop where
  padding : built.elem.padding =
    if built.elem.late then new.paddings.transport else old.paddings.transport
  drawn : built.late = true → new.headers.transport.Picks built.msgType
  key : built.late = true → built.key = new.headerProtectionKey

structure Snapshot.Ok (s : Snapshot) : Prop where
  reader : s.reader.Ok old new s.merged
  allocated : ∀ c ∈ s.allocated, c.Ok old new s.merged
  queue : ∀ c ∈ s.queue, c.Ok old new s.merged
  working : ∀ job ∈ s.working, job.Ok old new s.merged
  sent : ∀ built ∈ s.sent, built.Ok old new

end

section

variable {old new : Settings} {s s' : Snapshot}

theorem Snapshot.load_ok : (s.load old new).Ok old new s.merged := by
  refine ⟨id, ?_⟩
  cases h : s.merged <;> simp [Snapshot.load, Snapshot.settings, h]

theorem Snapshot.Ok.step (h : s.Ok old new) (hstep : s.Step old new s') : s'.Ok old new := by
  cases hstep with
  | merge =>
    -- nothing in flight has seen more than is in force now
    have hc : ∀ c : Captured, c.Ok old new s.merged → c.Ok old new true :=
      fun _ hok => ⟨fun _ => rfl, hok.2⟩
    exact ⟨hc _ h.reader, fun c hm => hc c (h.allocated c hm), fun c hm => hc c (h.queue c hm),
      fun job hm => ⟨hc _ (h.working job hm).elem, fun _ => rfl, (h.working job hm).drawn⟩, h.sent⟩
  | loadPadding => exact ⟨load_ok, h.allocated, h.queue, h.working, h.sent⟩
  | read =>
    refine ⟨h.reader, h.allocated, fun c hm => ?_, h.working, h.sent⟩
    rcases mem_append.mp hm with hm | hm
    · exact h.queue c hm
    · rw [mem_singleton.mp hm]
      exact h.reader
  | newOutboundElement =>
    refine ⟨h.reader, fun c hm => ?_, h.queue, h.working, h.sent⟩
    rcases mem_cons.mp hm with rfl | hm
    · exact load_ok
    · exact h.allocated c hm
  | stage front heq =>
    have hall := h.allocated
    simp only [heq, mem_append, mem_cons] at hall
    refine ⟨h.reader, fun c hm => hall c ((mem_append.mp hm).imp id .inr), fun c hm => ?_,
      h.working, h.sent⟩
    rcases mem_append.mp hm with hm | hm
    · exact h.queue c hm
    · exact hall c (.inr (.inl (mem_singleton.mp hm)))
  | drop front heq =>
    have hall := h.allocated
    simp only [heq, mem_append, mem_cons] at hall
    exact ⟨h.reader, fun c hm => hall c ((mem_append.mp hm).imp id .inr), h.queue, h.working,
      h.sent⟩
  | encrypt front heq =>
    have hall := h.queue
    simp only [heq, mem_append, mem_cons] at hall
    refine ⟨h.reader, h.allocated, fun c hm => hall c ((mem_append.mp hm).imp id .inr),
      fun job hm => ?_, h.sent⟩
    rcases mem_cons.mp hm with rfl | hm
    · exact ⟨hall _ (.inr (.inl rfl)), id, fun _ t ht => by cases ht⟩
    · exact h.working job hm
  | loadHeader front job heq hnone hpick =>
    have hall := h.working
    simp only [heq, mem_append, mem_cons] at hall
    have hjob := hall job (.inr (.inl rfl))
    refine ⟨h.reader, h.allocated, h.queue, fun other hm => ?_, h.sent⟩
    rcases mem_append.mp hm with hm | hm
    · exact hall other (.inl hm)
    rcases mem_cons.mp hm with rfl | hm
    · refine ⟨hjob.elem, hjob.late, fun hlate t ht => ?_⟩
      rw [Snapshot.settings, if_pos (hjob.late hlate)] at hpick
      rw [← Option.some.inj ht]
      exact hpick
    · exact hall other (.inr (.inr hm))
  | loadKey front job heq hsome =>
    have hall := h.working
    simp only [heq, mem_append, mem_cons] at hall
    have hjob := hall job (.inr (.inl rfl))
    refine ⟨h.reader, h.allocated, h.queue, fun other hm =>
      hall other ((mem_append.mp hm).imp id .inr),
      fun built hm => ?_⟩
    rcases mem_cons.mp hm with rfl | hm
    · refine ⟨hjob.elem.2, fun hlate => hjob.drawn hlate _ hsome, fun hlate => ?_⟩
      rw [Snapshot.settings, if_pos (hjob.late hlate)]
    · exact h.sent built hm

theorem Snapshot.Ok.run (h : Relation.ReflTransGen (Snapshot.Step old new) (.start old) s) :
    s.Ok old new := by
  induction h with
  | refl =>
    have hreader : (Snapshot.start old).reader.Ok old new false := ⟨id, rfl⟩
    exact ⟨hreader, by simp [Snapshot.start], by simp [Snapshot.start], by simp [Snapshot.start],
      by simp [Snapshot.start]⟩
  | tail _ hstep ih => exact ih.step hstep

end

-- Only the padding may still be the old one.
theorem sent_after_operation (old new : Settings) (s : Snapshot)
    (h : Relation.ReflTransGen (Snapshot.Step old new) (.start old) s) (built : Built)
    (hbuilt : built ∈ s.sent) (hlate : built.late = true) :
    new.headers.transport.Picks built.msgType ∧ built.key = new.headerProtectionKey ∧
    (built.elem.padding = new.paddings.transport ↔
      built.elem.late = true ∨ old.paddings.transport = new.paddings.transport) ∧
    (built.elem.padding = new.paddings.transport →
      ∀ stream maxMessageSize mtu, Agrees stream maxMessageSize mtu new →
      ∀ elem crypt addition add, crypt.length = built.elem.padding.toNat → addition.Picks add →
        elem.packet.length ≤ mtu →
        let packet := routineEncryption stream { new with headerProtectionKey := built.key }
          maxMessageSize elem crypt built.msgType addition add mtu
        determinePacketTypeAndPadding new packet messageUnknownType (typeHash stream new packet) =
          (messageTransportType, new.paddings.transport)) := by
  have hok := (Snapshot.Ok.run h).sent built hbuilt
  have hpadding := hok.padding
  refine ⟨hok.drawn hlate, hok.key hlate, ?_, ?_⟩
  · rw [hpadding]
    cases built.elem.late <;> simp
  · intro hcaptured stream maxMessageSize mtu hagrees elem crypt addition add hcrypt hadd hsize
    rw [hok.key hlate]
    exact hagrees.transport elem crypt built.msgType addition add (hcaptured ▸ hcrypt)
      (hok.drawn hlate) hadd hsize

def sampleOperation : Input := ⟨[⟨"s4=20".toList, .ok ()⟩], false⟩

def sampleMerged : Settings := { newDevice with paddings := ⟨0, 0, 0, 20⟩ }

theorem sample_merged : (ipcSetOperation newDevice sampleOperation).1 = sampleMerged ∧
    (ipcSetOperation newDevice sampleOperation).2.isOk = true := ⟨rfl, rfl⟩

theorem sample_run (c : Captured) :
    Relation.ReflTransGen (Snapshot.Step newDevice sampleMerged) ⟨true, c, [], [], [], []⟩
      ⟨true, c, [], [], [], [⟨c, true, 4, 0⟩]⟩ := by
  have hpick : ∀ s : Snapshot, s.merged = true →
      (s.settings newDevice sampleMerged).headers.transport.Picks 4 := by
    intro s hs
    rw [Snapshot.settings, if_pos hs]
    exact ⟨0, .inl (by decide), rfl⟩
  have hread : Snapshot.Step newDevice sampleMerged ⟨true, c, [], [], [], []⟩ ⟨true, c, [], [c], [], []⟩ :=
    .read
  have hencrypt : Snapshot.Step newDevice sampleMerged ⟨true, c, [], [c], [], []⟩
      ⟨true, c, [], [], [⟨c, true, none⟩], []⟩ := .encrypt [] rfl
  have hheader : Snapshot.Step newDevice sampleMerged ⟨true, c, [], [], [⟨c, true, none⟩], []⟩
      ⟨true, c, [], [], [⟨c, true, some 4⟩], []⟩ := .loadHeader [] ⟨c, true, none⟩ rfl rfl (hpick _ rfl)
  have hkey : Snapshot.Step newDevice sampleMerged ⟨true, c, [], [], [⟨c, true, some 4⟩], []⟩
      ⟨true, c, [], [], [], [⟨c, true, 4, 0⟩]⟩ := .loadKey [] ⟨c, true, some 4⟩ rfl rfl
  exact .head hread (.head hencrypt (.head hheader (.single hkey)))

theorem sample_merge : Snapshot.Step newDevice sampleMerged (.start newDevice)
    ⟨true, ⟨0, false⟩, [], [], [], []⟩ := .merge

theorem sent_after_operation_fresh :
    sampleMerged.headers.transport.Picks 4 ∧ sampleMerged.headerProtectionKey = 0 ∧
    sampleMerged.paddings.transport = 20 :=
  have h := sent_after_operation newDevice sampleMerged
    ⟨true, ⟨20, true⟩, [], [], [], [⟨⟨20, true⟩, true, 4, 0⟩]⟩
    (.head sample_merge (.head .loadPadding (sample_run ⟨20, true⟩))) ⟨⟨20, true⟩, true, 4, 0⟩
    mem_cons_self rfl
  ⟨h.1, h.2.1.symm, (h.2.2.1.mpr (.inl rfl)).symm⟩

theorem padding_outlives_operation : (ipcSetOperation newDevice sampleOperation).1 = sampleMerged ∧
    (ipcSetOperation newDevice sampleOperation).2.isOk = true ∧ sampleMerged.paddings.transport = 20 ∧
    ∃ s, Relation.ReflTransGen (Snapshot.Step newDevice sampleMerged) (.start newDevice) s ∧
      ∃ built ∈ s.sent, built.late = true ∧ built.elem.padding = 0 :=
  ⟨sample_merged.1, sample_merged.2, rfl,
    ⟨true, ⟨0, false⟩, [], [], [], [⟨⟨0, false⟩, true, 4, 0⟩]⟩,
    .head sample_merge (sample_run ⟨0, false⟩), ⟨⟨0, false⟩, true, 4, 0⟩, mem_cons_self, rfl, rfl⟩

end StarlingWg.Device
