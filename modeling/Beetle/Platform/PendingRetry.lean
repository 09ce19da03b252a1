import Beetle.Bus
import Beetle.Platform.CachedJson

/-! The one message that is kept for another try, and how often it may be tried. -/
namespace Beetle.Platform.Storage
open Beetle.Lib Beetle.Bus
variable {D : Type}

def pendingRetryMaxReplay : Nat := 3

structure PendingRetryEntry (D : Type) where
  msg : PcMsg D
  replayCount : Nat
  deriving DecidableEq

structure PendingRetryCache (D : Type) where
  loaded : Bool
  entry : Option (PendingRetryEntry D)
  deriving DecidableEq

def PendingRetryCache.default : PendingRetryCache D := ⟨false, none⟩

/-- The JSON library on the slot and on the messages, and the limits of the target.
Texts of two bytes are those of an empty slot. -/
structure PendingRetryConfig (D : Type) where
  maxContentLen : Nat
  maxWriteSize : Nat
  toVec : PendingRetryEntry D → Except String Bytes
  parseEntry : Bytes → Option (RawPcMsg D × Nat)
  parseMsg : Bytes → Option (RawPcMsg D)
  parse_toVec : ∀ entry json, toVec entry = .ok json →
    parseEntry json = some (entry.msg.serialize, entry.replayCount) ∧ 2 < json.length
  two_le : 2 ≤ maxWriteSize

structure PendingRetryState (D : Type) where
  cache : PendingRetryCache D
  disk : Option Bytes
  deriving DecidableEq

/-- A failure of reading that is not a missing file. -/
abbrev ReadFault := Option { e : Error // e.isNotFound = false }

namespace StoragePendingRetryStore
variable (cfg : PendingRetryConfig D)

def emptySlot : Bytes := [123, 125]

/-- What is in the file: the entry, a message of the older format, or nothing. -/
def parseSlot (buf : Bytes) : Option (PendingRetryEntry D) :=
  if buf.length ≤ 2 then none
  else
    match cfg.parseEntry buf with
    | some (raw, replayCount) => some ⟨.deserialize raw, replayCount⟩
    | none => (cfg.parseMsg buf).map fun raw => ⟨.deserialize raw, 1⟩

@[grind =]
def loadCacheLocked (s : PendingRetryState D) (fault : ReadFault) : PendingRetryState D × Except Error Unit :=
  if s.cache.loaded then (s, .ok ())
  else
    match readFile cfg.maxWriteSize s.disk fault with
    | .error e =>
      if e.isNotFound ∧ e.stage = "storage_read" then ({ s with cache := { s.cache with loaded := true } }, .ok ())
      else (s, .error e)
    | .ok buf =>
      if buf.length ≤ 2 then ({ s with cache := { s.cache with loaded := true } }, .ok ())
      else ({ s with cache := ⟨true, parseSlot cfg buf⟩ }, .ok ())

def savePendingRetry (s : PendingRetryState D) (fault : ReadFault) (msg : PcMsg D) :
    PendingRetryState D × Except Error Unit :=
  let contentLen := (utf8 msg.content.toList).length
  if cfg.maxContentLen < contentLen then
    (s, .error (.config ("content len " ++ toString contentLen ++ " exceeds " ++ toString cfg.maxContentLen)
      "pending_retry_save"))
  else
    match loadCacheLocked cfg s fault with
    | (s, .error e) => (s, .error e)
    | (s, .ok ()) =>
      let replayCount := (s.cache.entry.map fun entry => min (entry.replayCount + 1) pendingRetryMaxReplay).getD 1
      let entry := ⟨msg, replayCount⟩
      match cfg.toVec entry with
      | .error message => (s, .error (.config message "pending_retry_save"))
      | .ok json =>
        match writeFileUnlocked cfg.maxWriteSize s.disk json "storage_write_json" .done with
        | (disk, .error e) => ({ s with disk }, .error e)
        | (disk, .ok ()) => (⟨{ s.cache with entry := some entry }, disk⟩, .ok ())

def loadPendingRetry (s : PendingRetryState D) (fault : ReadFault) :
    PendingRetryState D × Except Error (Option (PcMsg D)) :=
  match loadCacheLocked cfg s fault with
  | (s, .error e) => (s, .error e)
  | (s, .ok ()) =>
    match s.cache.entry with
    | none => (s, .ok none)
    | some entry =>
      if pendingRetryMaxReplay ≤ entry.replayCount then
        let (disk, _) := writeFileUnlocked cfg.maxWriteSize s.disk emptySlot "storage_write_json" .done
        (⟨{ s.cache with entry := none }, disk⟩, .ok none)
      else (s, .ok (some entry.msg))

def clearPendingRetry (s : PendingRetryState D) : PendingRetryState D × Except Error Unit :=
  match writeFileUnlocked cfg.maxWriteSize s.disk emptySlot "storage_write_json" .done with
  | (disk, .error e) => ({ s with disk }, .error e)
  | (disk, .ok ()) => (⟨⟨true, none⟩, disk⟩, .ok ())

/-- A new process over the same file. -/
def restart (s : PendingRetryState D) : PendingRetryState D := ⟨.default, s.disk⟩

end StoragePendingRetryStore
end Beetle.Platform.Storage

/-! Whose replays the count in the slot is, over whole runs of saves and loads. -/
namespace Beetle.Platform.Storage
open Beetle.Lib Beetle.Bus

inductive RetryAction (D : Type) where
  | save (msg : PcMsg D) (fault : ReadFault)
  | load (fault : ReadFault)
  | clear
  | restart

/-- The store, and the messages saved since the last clear, the last one first. -/
structure RetryRun (D : Type) where
  state : PendingRetryState D
  saves : List (PcMsg D)
  deriving DecidableEq

def RetryRun.init {D : Type} (disk : Option Bytes) : RetryRun D := ⟨⟨.default, disk⟩, []⟩

namespace StoragePendingRetryStore
variable {D : Type} (cfg : PendingRetryConfig D)

@[grind =] def step (r : RetryRun D) : RetryAction D → Option (RetryRun D)
  | .save msg fault =>
    match savePendingRetry cfg r.state fault msg with
    | (state, .ok ()) => some ⟨state, msg :: r.saves⟩
    | (state, .error _) => some ⟨state, r.saves⟩
  | .load fault => some ⟨(loadPendingRetry cfg r.state fault).1, r.saves⟩
  | .clear => some ⟨(clearPendingRetry cfg r.state).1, []⟩
  | .restart => some ⟨restart r.state, r.saves⟩

/-- What the next call finds, when nothing goes wrong in reading. -/
@[grind =] def slot (s : PendingRetryState D) : Except Error (Option (PendingRetryEntry D)) :=
  match loadCacheLocked cfg s none with
  | (_, .error e) => .error e
  | (s, .ok ()) => .ok s.cache.entry

/-- What a new process makes of an entry. -/
def rereadEntry (entry : PendingRetryEntry D) : PendingRetryEntry D :=
  { entry with msg := entry.msg.reread }

section
variable [DecidableEq D]

/-- The last message saved is loaded while it has replays left of its own. -/
def KeepsOwn (r : RetryRun D) : Prop :=
  ∀ msg earlier, r.saves = msg :: earlier → r.saves.count msg < pendingRetryMaxReplay →
    (loadPendingRetry cfg r.state none).2 = .ok (some msg)

/-- A save that succeeds takes the last replay of the slot only for a message that
has used the others itself; a restart finds a message that reads back as it is. -/
def OwnReplays (r : RetryRun D) : RetryAction D → Prop
  | .save msg fault => (savePendingRetry cfg r.state fault msg).2 = .ok () →
      ∀ entry, slot cfg r.state = .ok (some entry) → pendingRetryMaxReplay ≤ entry.replayCount + 1 →
        pendingRetryMaxReplay ≤ r.saves.count msg + 1
  | .restart => ∀ msg earlier, r.saves = msg :: earlier → r.saves.count msg < pendingRetryMaxReplay →
      msg.reread = msg
  | _ => True

end

/-- What a run keeps of the slot: the file holds what the cache does, and the
message is the last one saved. -/
structure SlotTraced (r : RetryRun D) : Prop where
  unloaded : r.state.cache.loaded = false → r.state.cache.entry = none
  file : r.state.cache.loaded = true →
    slot cfg ⟨.default, r.state.disk⟩ = .ok (r.state.cache.entry.map rereadEntry)
  last : ∀ msg earlier, r.saves = msg :: earlier → ∀ entry, slot cfg r.state = .ok (some entry) →
    entry.msg = msg ∨ entry.msg = msg.reread

section
variable {cfg : PendingRetryConfig D} {s t : PendingRetryState D} {fault : ReadFault} {entry : PendingRetryEntry D}

theorem loadCacheLocked_cases (cfg : PendingRetryConfig D) (s : PendingRetryState D) (fault : ReadFault) :
    (∃ e, loadCacheLocked cfg s fault = (s, .error e)) ∨
      ∃ entry, loadCacheLocked cfg s fault = (⟨⟨true, entry⟩, s.disk⟩, .ok ()) ∧ slot cfg s = .ok entry := by
  obtain ⟨⟨loaded, entry⟩, disk⟩ := s
  cases loaded with
  | true => exact .inr ⟨entry, rfl, rfl⟩
  | false =>
    cases fault with
    | some e =>
      left
      have hfound : ¬ (e.1.isNotFound = true ∧ e.1.stage = "storage_read") := by simp [e.2]
      exact ⟨e.1, by simp only [loadCacheLocked, Bool.false_eq_true, if_false, readFile, if_neg hfound]⟩
    | none =>
      unfold slot
      simp only [loadCacheLocked, Bool.false_eq_true, if_false]
      cases readFile cfg.maxWriteSize disk none with
      | error e =>
        by_cases hfound : e.isNotFound = true ∧ e.stage = "storage_read"
        · exact .inr ⟨entry, by simp only [if_pos hfound], by simp only [if_pos hfound]⟩
        · exact .inl ⟨e, by simp only [if_neg hfound]⟩
      | ok buf =>
        by_cases hlen : buf.length ≤ 2
        · exact .inr ⟨entry, by simp only [if_pos hlen], by simp only [if_pos hlen]⟩
        · exact .inr ⟨parseSlot cfg buf, by simp only [if_neg hlen], by simp only [if_neg hlen]⟩

theorem reread_parseSlot {buf : Bytes} (h : parseSlot cfg buf = some entry) : rereadEntry entry = entry := by
  unfold parseSlot at h
  split at h
  · cases h
  · split at h
    · cases h
      simp [rereadEntry, PcMsg.reread_deserialize]
    · obtain ⟨raw, -, rfl⟩ := Option.map_eq_some_iff.mp h
      simp [rereadEntry, PcMsg.reread_deserialize]

/-- A slot that was read from the file reads back as it is. -/
theorem reread_slot {disk : Option Bytes}
    (h : slot cfg ⟨.default, disk⟩ = .ok (some entry)) : rereadEntry entry = entry := by
  simp only [slot, loadCacheLocked, PendingRetryCache.default, Bool.false_eq_true, if_false] at h
  cases hread : readFile cfg.maxWriteSize disk none with
  | error e =>
    simp only [hread] at h
    split at h
    · cases h
    · rename_i hcall
      split at hcall
      · cases hcall
        cases h
      · cases hcall
  | ok buf =>
    simp only [hread] at h
    split at h
    · cases h
    · rename_i hcall
      split at hcall
      · cases hcall
        cases h
      · cases hcall
        exact reread_parseSlot (Except.ok.inj h)

theorem slot_of_written {json : Bytes} (hjson : cfg.toVec entry = .ok json) (hsize : json.length ≤ cfg.maxWriteSize) :
    slot cfg ⟨.default, some json⟩ = .ok (some (rereadEntry entry)) := by
  obtain ⟨hparse, hlen⟩ := cfg.parse_toVec entry json hjson
  have hshort : ¬ json.length ≤ 2 := by omega
  have hfits : ¬ json.length > cfg.maxWriteSize := by omega
  simp [slot, loadCacheLocked, PendingRetryCache.default, readFile, hfits, hshort, parseSlot, hparse,
    rereadEntry, PcMsg.reread]

theorem slot_of_emptySlot : slot cfg ⟨.default, some emptySlot⟩ = .ok none := by
  have hfits : ¬ emptySlot.length > cfg.maxWriteSize := Nat.not_lt.mpr cfg.two_le
  simp only [slot, loadCacheLocked, PendingRetryCache.default, Bool.false_eq_true, if_false, readFile, if_neg hfits]
  rfl

theorem write_emptySlot (disk : Option Bytes) :
    writeFileUnlocked cfg.maxWriteSize disk emptySlot "storage_write_json" .done = (some emptySlot, .ok ()) := by
  have hfits : ¬ emptySlot.length > cfg.maxWriteSize := Nat.not_lt.mpr cfg.two_le
  simp only [writeFileUnlocked, if_neg hfits]

/-! What each call does to the slot. -/

/-- The state is as it was, but that the cache may have been filled from the file. -/
def Filled (cfg : PendingRetryConfig D) (s t : PendingRetryState D) : Prop :=
  t = s ∨ ∃ entry, slot cfg s = .ok entry ∧ t = ⟨⟨true, entry⟩, s.disk⟩

theorem Filled.slot_eq (h : Filled cfg s t) : slot cfg t = slot cfg s := by
  rcases h with rfl | ⟨entry, hslot, rfl⟩
  · rfl
  · exact hslot.symm

/-- The replay count that the next save gives the slot. -/
def nextReplay (entry : Option (PendingRetryEntry D)) : Nat :=
  (entry.map fun entry => min (entry.replayCount + 1) pendingRetryMaxReplay).getD 1

theorem savePendingRetry_cases (cfg : PendingRetryConfig D) (s : PendingRetryState D) (fault : ReadFault)
    (msg : PcMsg D) :
    (∃ t e, savePendingRetry cfg s fault msg = (t, .error e) ∧ Filled cfg s t) ∨
      ∃ entry json, slot cfg s = .ok entry ∧ cfg.toVec ⟨msg, nextReplay entry⟩ = .ok json ∧
        json.length ≤ cfg.maxWriteSize ∧
        savePendingRetry cfg s fault msg = (⟨⟨true, some ⟨msg, nextReplay entry⟩⟩, some json⟩, .ok ()) := by
  simp only [savePendingRetry]
  split
  · exact .inl ⟨_, _, rfl, .inl rfl⟩
  · rcases loadCacheLocked_cases cfg s fault with ⟨e, herror⟩ | ⟨entry, hload, hslot⟩
    · rw [herror]
      exact .inl ⟨_, _, rfl, .inl rfl⟩
    · rw [hload]
      simp only
      split
      · exact .inl ⟨_, _, rfl, .inr ⟨entry, hslot, rfl⟩⟩
      · rename_i json hjson
        simp only [writeFileUnlocked]
        split
        · rename_i hwrite
          split at hwrite
          · cases hwrite
            exact .inl ⟨_, _, rfl, .inr ⟨entry, hslot, rfl⟩⟩
          · cases hwrite
        · rename_i hwrite
          split at hwrite
          · cases hwrite
          · rename_i hfits
            cases hwrite
            exact .inr ⟨entry, json, hslot, hjson, Nat.le_of_not_lt hfits, rfl⟩

theorem loadPendingRetry_cases (cfg : PendingRetryConfig D) (s : PendingRetryState D) (fault : ReadFault) :
    Filled cfg s (loadPendingRetry cfg s fault).1 ∨
      ∃ entry, slot cfg s = .ok (some entry) ∧ pendingRetryMaxReplay ≤ entry.replayCount ∧
        (loadPendingRetry cfg s fault).1 = ⟨⟨true, none⟩, some emptySlot⟩ := by
  unfold loadPendingRetry
  rcases loadCacheLocked_cases cfg s fault with ⟨e, herror⟩ | ⟨entry, hload, hslot⟩
  · rw [herror]
    exact .inl (.inl rfl)
  · rw [hload]
    cases entry with
    | none => exact .inl (.inr ⟨none, hslot, rfl⟩)
    | some entry =>
      simp only [write_emptySlot]
      split
      · rename_i hmax
        exact .inr ⟨entry, hslot, hmax, rfl⟩
      · exact .inl (.inr ⟨some entry, hslot, rfl⟩)

theorem loads_iff {msg : PcMsg D} : (loadPendingRetry cfg s none).2 = .ok (some msg) ↔
    ∃ entry, slot cfg s = .ok (some entry) ∧ entry.msg = msg ∧ entry.replayCount < pendingRetryMaxReplay := by
  unfold loadPendingRetry
  rcases loadCacheLocked_cases cfg s none with ⟨e, herror⟩ | ⟨entry, hload, hslot⟩
  · have hslot : slot cfg s = .error e := by rw [slot, herror]
    simp [herror, hslot]
  · rw [hload, hslot]
    cases entry with
    | none => simp
    | some entry =>
      simp only [write_emptySlot]
      split
      · rename_i hmax
        simp only [Except.ok.injEq, reduceCtorEq, Option.some.injEq, exists_eq_left', false_iff, not_and, not_lt]
        exact fun _ => hmax
      · rename_i hmax
        simp only [Except.ok.injEq, Option.some.injEq, exists_eq_left']
        exact ⟨fun hmsg => ⟨hmsg, Nat.lt_of_not_le hmax⟩, fun h => h.1⟩

theorem clearPendingRetry_state : (clearPendingRetry cfg s).1 = ⟨⟨true, none⟩, some emptySlot⟩ := by
  simp only [clearPendingRetry, write_emptySlot]

/-! What a run keeps. -/

variable {r u : RetryRun D}

theorem SlotTraced.filled (h : SlotTraced cfg r) (hfilled : Filled cfg r.state t) :
    SlotTraced cfg ⟨t, r.saves⟩ := by
  have hslot := hfilled.slot_eq
  refine ⟨?_, ?_, fun msg earlier hsaves entry hentry => h.last msg earlier hsaves entry (hslot ▸ hentry)⟩
  · rcases hfilled with rfl | ⟨entry, -, rfl⟩
    · exact h.unloaded
    · intro hloaded
      cases hloaded
  · rcases hfilled with rfl | ⟨entry, hentry, rfl⟩
    · exact h.file
    · intro _
      cases hloaded : r.state.cache.loaded with
      | true =>
        have hfile := h.file hloaded
        have hcache : r.state.cache.entry = entry := by
          simpa [slot, loadCacheLocked, hloaded] using hentry
        rwa [hcache] at hfile
      | false =>
        have hstate : r.state = ⟨.default, r.state.disk⟩ := by
          have hnone := h.unloaded hloaded
          obtain ⟨⟨⟨loaded, cached⟩, disk⟩, saves⟩ := r
          simp only at hloaded hnone
          rw [hloaded, hnone]
          rfl
        rw [hstate] at hentry
        rw [hentry]
        cases entry with
        | none => rfl
        | some entry => simp only [Option.map_some, reread_slot hentry]

theorem slotTraced_emptied (saves : List (PcMsg D)) : SlotTraced cfg ⟨⟨⟨true, none⟩, some emptySlot⟩, saves⟩ := by
  refine ⟨?_, fun _ => slot_of_emptySlot, ?_⟩
  · intro hloaded
    cases hloaded
  · rintro msg earlier - entry hentry
    cases hentry

theorem SlotTraced.restart (h : SlotTraced cfg r) : SlotTraced cfg ⟨restart r.state, r.saves⟩ := by
  refine ⟨fun _ => rfl, ?_, fun msg earlier hsaves entry hentry => ?_⟩
  · intro hloaded
    cases hloaded
  · cases hloaded : r.state.cache.loaded with
    | true =>
      have hfile := (h.file hloaded).symm.trans hentry
      simp only [Except.ok.injEq] at hfile
      obtain ⟨old, hold, rfl⟩ := Option.map_eq_some_iff.mp hfile
      have hslot : slot cfg r.state = .ok (some old) := by
        simp [slot, loadCacheLocked, hloaded, hold]
      rcases h.last msg earlier hsaves old hslot with hmsg | hmsg
      · exact .inr (by rw [← hmsg]; rfl)
      · exact .inr (by rw [← PcMsg.reread_reread, ← hmsg]; rfl)
    | false =>
      refine h.last msg earlier hsaves entry ?_
      have hnone := h.unloaded hloaded
      obtain ⟨⟨⟨loaded, cached⟩, disk⟩, saves⟩ := r
      simp only at hloaded hnone
      rw [hloaded, hnone]
      exact hentry

theorem SlotTraced.step {a : RetryAction D} (h : SlotTraced cfg r) (hu : step cfg r a = some u) :
    SlotTraced cfg u := by
  cases a with
  | save msg fault =>
    simp only [StoragePendingRetryStore.step] at hu
    rcases savePendingRetry_cases cfg r.state fault msg with
      ⟨t, e, hsave, hfilled⟩ | ⟨entry, json, hslot, hjson, hsize, hsave⟩
    · rw [hsave] at hu
      cases hu
      exact h.filled hfilled
    · rw [hsave] at hu
      cases hu
      refine ⟨?_, fun _ => slot_of_written hjson hsize, ?_⟩
      · intro hloaded
        cases hloaded
      · rintro _ _ ⟨⟩ _ ⟨⟩
        exact .inl rfl
  | load fault =>
    cases hu
    rcases loadPendingRetry_cases cfg r.state fault with hfilled | ⟨entry, -, -, hstate⟩
    · exact h.filled hfilled
    · rw [hstate]
      exact slotTraced_emptied r.saves
  | clear =>
    cases hu
    rw [clearPendingRetry_state]
    exact slotTraced_emptied []
  | restart =>
    cases hu
    exact h.restart

section
variable [DecidableEq D]

theorem KeepsOwn.of_slot_eq (h : KeepsOwn cfg r) (hslot : slot cfg t = slot cfg r.state) :
    KeepsOwn cfg ⟨t, r.saves⟩ := by
  intro msg earlier hsaves hcount
  have hloads := h msg earlier hsaves hcount
  rw [loads_iff] at hloads ⊢
  rwa [hslot]

theorem KeepsOwn.step {a : RetryAction D} (h : KeepsOwn cfg r) (htraced : SlotTraced cfg r)
    (ha : OwnReplays cfg r a) (hu : step cfg r a = some u) : KeepsOwn cfg u := by
  cases a with
  | save msg fault =>
    simp only [StoragePendingRetryStore.step] at hu
    rcases savePendingRetry_cases cfg r.state fault msg with
      ⟨t, e, hsave, hfilled⟩ | ⟨entry, json, hslot, hjson, hsize, hsave⟩
    · rw [hsave] at hu
      cases hu
      exact h.of_slot_eq hfilled.slot_eq
    · have hown := ha (by rw [hsave])
      rw [hsave] at hu
      cases hu
      rintro _ _ ⟨⟩ hcount
      rw [loads_iff]
      refine ⟨_, rfl, rfl, ?_⟩
      rw [List.count_cons_self] at hcount
      cases entry with
      | none => simp [nextReplay, pendingRetryMaxReplay]
      | some entry =>
        simp only [nextReplay, Option.map_some, Option.getD_some, pendingRetryMaxReplay] at *
        have hreplay := hown entry hslot
        omega
  | load fault =>
    cases hu
    rcases loadPendingRetry_cases cfg r.state fault with hfilled | ⟨entry, hslot, hmax, -⟩
    · exact h.of_slot_eq hfilled.slot_eq
    · intro msg earlier hsaves hcount
      obtain ⟨entry', hslot', -, hlt⟩ := loads_iff.mp (h msg earlier hsaves hcount)
      obtain rfl : entry = entry' := by simpa using hslot.symm.trans hslot'
      omega
  | clear =>
    cases hu
    intro msg earlier hsaves
    cases hsaves
  | restart =>
    cases hu
    intro msg earlier hsaves hcount
    obtain ⟨entry, hslot, rfl, hlt⟩ := loads_iff.mp (h msg earlier hsaves hcount)
    have hreread := ha entry.msg earlier hsaves hcount
    rw [loads_iff]
    refine ⟨rereadEntry entry, ?_, hreread, hlt⟩
    cases hloaded : r.state.cache.loaded with
    | true =>
      have hcache : r.state.cache.entry = some entry := by simpa [slot, loadCacheLocked, hloaded] using hslot
      have hfile := htraced.file hloaded
      rwa [hcache] at hfile
    | false =>
      have hnone := htraced.unloaded hloaded
      obtain ⟨⟨⟨loaded, cached⟩, disk⟩, saves⟩ := r
      simp only at hloaded hnone
      rw [hloaded, hnone] at hslot
      have hsame : rereadEntry entry = entry := reread_slot hslot
      rw [hsame]
      exact hslot

/-- A step that misses the condition loses a message with replays left. -/
theorem not_keepsOwn_of_step {a : RetryAction D} (hu : step cfg r a = some u) (ha : ¬ OwnReplays cfg r a) :
    ¬ KeepsOwn cfg u := by
  intro h
  cases a with
  | save msg fault =>
    simp only [OwnReplays, not_forall, Nat.not_le] at ha
    obtain ⟨hok, entry, hslot, hreplay, hcount⟩ := ha
    simp only [StoragePendingRetryStore.step] at hu
    rcases savePendingRetry_cases cfg r.state fault msg with
      ⟨t, e, hsave, -⟩ | ⟨entry', json, hslot', -, -, hsave⟩
    · rw [hsave] at hok
      cases hok
    · obtain rfl : some entry = entry' := Except.ok.inj (hslot.symm.trans hslot')
      rw [hsave] at hu
      cases hu
      obtain ⟨last, hlast, -, hlt⟩ := loads_iff.mp (h msg r.saves rfl (by rwa [List.count_cons_self]))
      obtain rfl := Option.some.inj (Except.ok.inj hlast)
      simp only [nextReplay, Option.map_some, Option.getD_some, pendingRetryMaxReplay] at hlt hreplay
      omega
  | restart =>
    simp only [OwnReplays, not_forall] at ha
    obtain ⟨msg, earlier, hsaves, hcount, hreread⟩ := ha
    cases hu
    obtain ⟨entry, hslot, rfl, -⟩ := loads_iff.mp (h msg earlier hsaves hcount)
    exact hreread (congrArg PendingRetryEntry.msg (reread_slot hslot))
  | load fault => exact ha trivial
  | clear => exact ha trivial

end
end

/-- Every message has its own replays in a run just when no save takes the last one
of the slot for a message that has not used the others, and no restart changes one. -/
theorem own_replays_iff [DecidableEq D] (cfg : PendingRetryConfig D) (disk : Option Bytes)
    (actions : List (RetryAction D)) :
    Always (step cfg) (KeepsOwn cfg) actions (.init disk) ↔
      Meets (step cfg) (OwnReplays cfg) actions (.init disk) := by
  have htraced : SlotTraced cfg (.init disk) := by
    refine ⟨fun _ => rfl, ?_, ?_⟩
    · intro hloaded
      cases hloaded
    · rintro msg earlier ⟨⟩
  have hkeeps : KeepsOwn cfg (.init disk) := by
    rintro msg earlier ⟨⟩
  constructor
  · apply meets_of_always (J := SlotTraced cfg)
    · exact fun r a u hr hu => hr.step hu
    · exact fun r a u _ hu ha => not_keepsOwn_of_step hu ha
    · exact htraced
  · apply always_of_meets (I := fun r => SlotTraced cfg r ∧ KeepsOwn cfg r)
    · exact fun r a u hr ha hu => ⟨hr.1.step hu, hr.2.step hr.1 ha hu⟩
    · exact fun r hr => hr.2
    · exact ⟨htraced, hkeeps⟩

/-! One message saved twice, and then another. -/

def textMessage (content : String) : PcMsg Unit := ⟨content, .text content, ()⟩

def retryJson (content : String) (replayCount : String) : Bytes :=
  utf8 ("\x7b\"msg\":\x7b\"content\":\"".toList ++ content.toList ++ "\"\x7d,\"replay_count\":".toList ++
    replayCount.toList ++ "\x7d".toList)

/-- The slots of the run below, with their texts in the file. -/
def retryTexts : List (PendingRetryEntry Unit × Bytes) :=
  [(⟨textMessage "a", 1⟩, retryJson "a" "1"), (⟨textMessage "a", 2⟩, retryJson "a" "2"),
    (⟨textMessage "b", 3⟩, retryJson "b" "3")]

def retryConfig : PendingRetryConfig Unit where
  maxContentLen := 262144
  maxWriteSize := maxWriteSizeHost
  toVec entry :=
    match retryTexts.find? (·.1 = entry) with
    | some row => .ok row.2
    | none => .error "not written here"
  parseEntry json := (retryTexts.find? (·.2 = json)).map fun row => (row.1.msg.serialize, row.1.replayCount)
  parseMsg _ := none
  parse_toVec entry json h := by
    have hrows : ∀ row ∈ retryTexts,
        (retryTexts.find? (·.2 = row.2)).map (fun row => (row.1.msg.serialize, row.1.replayCount)) =
          some (row.1.msg.serialize, row.1.replayCount) ∧ 2 < row.2.length := by
      decide
    split at h
    · rename_i row hrow
      cases h
      obtain rfl : row.1 = entry := by simpa using List.find?_some hrow
      exact hrows row (List.mem_of_find?_eq_some hrow)
    · cases h
  two_le := by decide

theorem other_message_dropped :
    ¬ Always (step retryConfig) (KeepsOwn retryConfig)
      [.save (textMessage "a") none, .save (textMessage "a") none, .save (textMessage "b") none] (.init none) := by
  intro h
  have hend := h.last (t := ⟨⟨⟨true, some ⟨textMessage "b", 3⟩⟩, some (retryJson "b" "3")⟩,
    [textMessage "b", textMessage "a", textMessage "a"]⟩) (by decide)
  obtain ⟨entry, hslot, -, hlt⟩ := loads_iff.mp (hend _ _ rfl (by decide))
  obtain rfl := Option.some.inj (Except.ok.inj hslot)
  exact absurd hlt (by decide)

end StoragePendingRetryStore
end Beetle.Platform.Storage
