import Beetle.Error
import Beetle.Lib.Lists
import Beetle.Lib.Maps
import Beetle.Lib.Text

/-! The store of chat sessions that the agent works with, and the bounded log
that an implementation of it stands for. -/
namespace Beetle.Memory
open Beetle.Lib

def maxSessionMessageLen : Nat := 4 * 1024

/-- Bound of the ring: an implementation drops the oldest message beyond it. -/
def maxSessionEntries : Nat := 128

structure SessionMessage where
  role : String
  content : String
  deriving DecidableEq

/-- A message with its stable id. -/
structure SessionMessageRecord where
  messageId : String
  role : String
  content : String

def SessionMessageRecord.asMessage (record : SessionMessageRecord) : SessionMessage :=
  ⟨record.role, record.content⟩

def sessionMessageIdHashUpdate (hash : UInt64) (bs : Bytes) : UInt64 :=
  bs.foldl (fun hash b => (hash ^^^ b.toUInt64) * 0x100000001b3) hash

def leBytes (n : Nat) : Bytes :=
  [UInt8.ofNat n, UInt8.ofNat (n / 256), UInt8.ofNat (n / 65536), UInt8.ofNat (n / 16777216)]

/-- The id of a message that was stored without one. -/
def synthesizeSessionMessageId (chatId role content : String) (occurrence : Nat) : String :=
  let parts := [utf8 chatId.toList, [0], utf8 role.toList, [0], utf8 content.toList, [0], leBytes occurrence]
  let hash := parts.foldl sessionMessageIdHashUpdate 0xcbf29ce484222325
  "legacy_" ++ String.ofList (hex 16 hash.toNat)

/-- `seen` counts the earlier messages with the same role and content. -/
def synthesizeRecordsFrom (chatId : String) (seen : HashMap (String × String) Nat) :
    List SessionMessage → List SessionMessageRecord
  | [] => []
  | message :: messages =>
    let key := (message.role, message.content)
    let occurrence :=
      match seen.lookup key with
      | some count => min (count + 1) (2 ^ 32 - 1)
      | none => 1
    ⟨synthesizeSessionMessageId chatId message.role message.content occurrence, message.role,
      message.content⟩ :: synthesizeRecordsFrom chatId (seen.insert key occurrence) messages

def synthesizeSessionMessageRecords (chatId : String) (messages : List SessionMessage) :
    List SessionMessageRecord :=
  synthesizeRecordsFrom chatId ∅ messages

/-- An implementation over its states `σ`; `Φ` is what its environment decides
about one call. -/
structure SessionStore (σ Φ : Type) where
  appendBatch : σ → Φ → String → List SessionMessage → σ × Except Error Unit
  loadRecent : σ → Φ → String → Nat → σ × Except Error (List SessionMessage)
  messageCount : σ → Φ → String → σ × Except Error Nat
  clear : σ → Φ → String → σ × Except Error Unit

/-- All messages of each chat since its last clear. -/
abbrev SessionLog := String → List SessionMessage

namespace SessionLog

def append (log : SessionLog) (chatId : String) (messages : List SessionMessage) : SessionLog :=
  Function.update log chatId (log chatId ++ messages)

def clear (log : SessionLog) (chatId : String) : SessionLog := Function.update log chatId []

/-- What a ring retains of the log. -/
def retained (log : SessionLog) (chatId : String) : List SessionMessage :=
  (log chatId).rtake maxSessionEntries

variable {log : SessionLog} {c chatId : String} {messages : List SessionMessage}

@[simp] theorem append_self : log.append c messages c = log c ++ messages := by simp [append]

@[simp] theorem append_of_ne (h : chatId ≠ c) : log.append c messages chatId = log chatId := by
  simp [append, h]

@[simp] theorem clear_self : log.clear c c = [] := by simp [clear]

@[simp] theorem clear_of_ne (h : chatId ≠ c) : log.clear c chatId = log chatId := by
  simp [clear, h]

end SessionLog

variable {σ Φ : Type}

/-- `store` holds the messages `held` of each chat, in a ring. Writes either
take effect or fail with an error for which `fails` holds and change nothing;
reads succeed. -/
structure SessionStore.Holds (store : SessionStore σ Φ) (held : σ → SessionLog)
    (fails : Error → Prop) : Prop where
  bounded : ∀ s chatId, (held s chatId).length ≤ maxSessionEntries
  append_ok : ∀ s φ chatId messages t, store.appendBatch s φ chatId messages = (t, .ok ()) →
    held t = Function.update (held s) chatId (((held s).append chatId messages).retained chatId)
  append_error : ∀ s φ chatId messages t e, store.appendBatch s φ chatId messages = (t, .error e) →
    held t = held s ∧ fails e
  clear_ok : ∀ s φ chatId t, store.clear s φ chatId = (t, .ok ()) → held t = (held s).clear chatId
  clear_error : ∀ s φ chatId t e, store.clear s φ chatId = (t, .error e) → held t = held s ∧ fails e
  loadRecent : ∀ s φ chatId n,
    (store.loadRecent s φ chatId n).2 = .ok ((held s chatId).rtake n) ∧
      held (store.loadRecent s φ chatId n).1 = held s
  messageCount : ∀ s φ chatId,
    (store.messageCount s φ chatId).2 = .ok (held s chatId).length ∧
      held (store.messageCount s φ chatId).1 = held s

/-- The log itself as a store, whose writes fail where the environment says so. -/
def SessionLog.store (fault : Error) : SessionStore SessionLog Bool where
  appendBatch log fails chatId messages :=
    if fails then (log, .error fault) else (log.append chatId messages, .ok ())
  loadRecent log _ chatId n := (log, .ok ((log.retained chatId).rtake n))
  messageCount log _ chatId := (log, .ok (log.retained chatId).length)
  clear log fails chatId := if fails then (log, .error fault) else (log.clear chatId, .ok ())

theorem SessionLog.store_holds {fault : Error} {fails : Error → Prop} (hfault : fails fault) :
    (SessionLog.store fault).Holds SessionLog.retained fails where
  bounded log chatId := (length_rtake _ _).trans_le (min_le_left _ _)
  append_ok log failed c messages t h := by
    cases failed with
    | true => simp [SessionLog.store] at h
    | false =>
      obtain rfl : log.append c messages = t := by simpa [SessionLog.store] using h
      funext chatId
      by_cases hc : chatId = c
      · subst hc
        simp [SessionLog.retained, rtake_rtake_append]
      · simp [SessionLog.retained, hc]
  append_error log failed c messages t e h := by
    cases failed with
    | true =>
      obtain ⟨rfl, rfl⟩ : log = t ∧ fault = e := by simpa [SessionLog.store] using h
      exact ⟨rfl, hfault⟩
    | false => simp [SessionLog.store] at h
  clear_ok log failed c t h := by
    cases failed with
    | true => simp [SessionLog.store] at h
    | false =>
      obtain rfl : log.clear c = t := by simpa [SessionLog.store] using h
      funext chatId
      by_cases hc : chatId = c
      · subst hc
        simp [SessionLog.retained]
      · simp [SessionLog.retained, hc]
  clear_error log failed c t e h := by
    cases failed with
    | true =>
      obtain ⟨rfl, rfl⟩ : log = t ∧ fault = e := by simpa [SessionLog.store] using h
      exact ⟨rfl, hfault⟩
    | false => simp [SessionLog.store] at h
  loadRecent _ _ _ _ := ⟨rfl, rfl⟩
  messageCount _ _ _ := ⟨rfl, rfl⟩

end Beetle.Memory
