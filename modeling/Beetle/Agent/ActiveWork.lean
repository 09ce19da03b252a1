import Beetle.Util

/-! Background jobs that outlive the turn they come from. -/
namespace Beetle.Agent

inductive DetachedJobKind where
  | longTermMemoryRefresh
  | postReplyMaintenance
  | idleMemoryForge
  | selfRuntimePostReply
  | selfRuntimeIdleTick
  | operatorMaintenance
  deriving DecidableEq

def DetachedJobKind.storageKeyFragment : DetachedJobKind → String
  | longTermMemoryRefresh => "long_term_memory_refresh"
  | postReplyMaintenance => "post_reply_maintenance"
  | idleMemoryForge => "idle_memory_forge"
  | selfRuntimePostReply => "self_runtime_post_reply"
  | selfRuntimeIdleTick => "self_runtime_idle_tick"
  | operatorMaintenance => "operator_maintenance"

structure DetachedWorkKey where
  ownerChannel : String
  ownerChatId : String
  kind : DetachedJobKind
  deriving DecidableEq

def DetachedWorkKey.new (ownerChannel ownerChatId : String) (kind : DetachedJobKind) : DetachedWorkKey :=
  ⟨trimStr ownerChannel, trimStr ownerChatId, kind⟩

def DetachedWorkKey.storageKey (key : DetachedWorkKey) : String :=
  key.ownerChannel ++ "\u001f|" ++ key.ownerChatId ++ "\u001f|" ++ key.kind.storageKeyFragment

inductive DetachedWorkState where
  | pending
  | queued
  | running
  deriving DecidableEq

/-- `J` is the type of the message that carries the job. -/
structure DetachedWorkRecord (J : Type) where
  key : DetachedWorkKey
  job : J
  state : DetachedWorkState
  wakeAtMs : Nat
  revision : Nat
  lastReason : String
  updatedAtMs : Nat
  deriving DecidableEq

structure DetachedWorkUpsertOutcome (J : Type) where
  changed : Bool
  record : DetachedWorkRecord J

end Beetle.Agent
