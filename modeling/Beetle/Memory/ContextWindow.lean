import Beetle.Memory.Session
import Beetle.Util
import Mathlib.Data.List.Sort

/-! The window of messages that a request to the model carries. -/
namespace Beetle.Memory
open Beetle.Lib

/-- A message of a request to the model. -/
structure Message where
  role : String
  content : String
  deriving DecidableEq

def contextSummaryMarker : String := "[CONTEXT_SUMMARY]"

def Message.isSummary (message : Message) : Bool :=
  contextSummaryMarker.toList.isPrefixOf message.content.toList

def Message.size (message : Message) : Nat := message.role.utf8ByteSize + message.content.utf8ByteSize + 2

def totalSize (messages : List Message) : Nat := (messages.map Message.size).sum

def buildContextSummaryMessage (summary : String) : String :=
  contextSummaryMarker ++ "\n" ++ trimStr summary ++ "\n[/CONTEXT_SUMMARY]"

/-- Also gives the index of the message that the text went to. -/
def pushContextMessage (messages : List Message) (role content : String) : List Message × Nat :=
  match messages.getLast? with
  | some last =>
    if last.role = role ∧ last.isSummary = false then
      (messages.dropLast ++ [{ last with content := last.content ++ "\n" ++ content }], messages.length - 1)
    else (messages ++ [⟨role, content⟩], messages.length)
  | none => (messages ++ [⟨role, content⟩], messages.length)

/-- The loop over the history; the indices are those of its messages in the window. -/
def pushSessionMessages (messages : List Message) (indices : List Nat) :
    List SessionMessage → List Message × List Nat
  | [] => (messages, indices)
  | m :: recent =>
    let (messages, index) := pushContextMessage messages m.role m.content
    pushSessionMessages messages (indices ++ [index]) recent

/-- The first loop of `truncate_messages_to_len`: the total that is left, and the
indices to remove. -/
@[grind =] def markRemoved (maxLen : Nat) (protectedIdx summaryIdx : Option Nat) (len : Nat) :
    List (Message × Nat) → Nat → List Nat → Nat × List Nat
  | [], total, removed => (total, removed)
  | (message, index) :: messages, total, removed =>
    if total ≤ maxLen then (total, removed)
    else if some index = protectedIdx ∨ some index = summaryIdx then
      markRemoved maxLen protectedIdx summaryIdx len messages total removed
    else if len - removed.length ≤ 1 then (total, removed)
    else markRemoved maxLen protectedIdx summaryIdx len messages (total - message.size) (removed ++ [index])

/-- The last loop of `truncate_messages_to_len`, with a cursor into the indices to remove. -/
def keepOthers : List Nat → List (Message × Nat) → List Message
  | _, [] => []
  | removed, (message, index) :: messages =>
    if removed.head? = some index then keepOthers removed.tail messages
    else message :: keepOthers removed messages

/-- `merge_consecutive_same_role` from the message at its index on. -/
def mergeFrom (message : Message) : List Message → List Message
  | [] => [message]
  | next :: messages =>
    if message.role = next.role ∧ ¬(message.isSummary ∨ next.isSummary) then
      mergeFrom { message with content := message.content ++ "\n" ++ next.content } messages
    else message :: mergeFrom next messages

def mergeConsecutiveSameRole : List Message → List Message
  | [] => []
  | message :: messages => mergeFrom message messages

/-- `summary_idx` of `truncate_messages_to_len`. -/
def summaryIndex (preserveSummary : Bool) : Option Nat := if preserveSummary then some 0 else none

/-- The summary goes too when what is left is still too large. -/
def markSummary (maxLen : Nat) (protectedIdx summaryIdx : Option Nat) (len : Nat) : Nat × List Nat → List Nat
  | (total, removed) =>
    if maxLen < total ∧ summaryIdx.isSome ∧ 1 < len - removed.length ∧ some 0 ≠ protectedIdx then removed ++ [0]
    else removed

def truncateMessagesToLen (messages : List Message) (maxLen : Nat) (protectedIdx : Option Nat)
    (preserveSummary : Bool) : List Message :=
  let summaryIdx := summaryIndex preserveSummary
  let marked := markRemoved maxLen protectedIdx summaryIdx messages.length messages.zipIdx (totalSize messages) []
  let removed := (markSummary maxLen protectedIdx summaryIdx messages.length marked).insertionSort (· ≤ ·)
  mergeConsecutiveSameRole (keepOthers removed messages.zipIdx)

/-- The summary, the history and the current message, before anything is removed. -/
def assembleMessages (summaryText : Option String) (recent : List SessionMessage) (content : String) :
    List Message × List Nat :=
  let summary := summaryText.toList.map fun summary => ⟨"user", buildContextSummaryMessage summary⟩
  let (messages, indices) := pushSessionMessages summary [] recent
  ((pushContextMessage messages "user" content).1, indices)

/-- The window index of the message that the offset from the end stands for. -/
def protectedIndex (indices : List Nat) (importantOffset : Option Nat) : Option Nat :=
  importantOffset.bind fun offset =>
    if indices.length ≤ offset then none else indices[indices.length - (1 + offset)]?

/-- What `build_context_messages` reads of the two stores. -/
structure ContextStores where
  loadRecent : String → Nat → Except Error (List SessionMessage)
  getImportantOffset : String → Except Error (Option Nat)

namespace ContextStores
variable (stores : ContextStores)

def recentMessages (chatId : String) (recentMessagesLimit : Nat)
    (recentOverride : Option (List SessionMessage)) : List SessionMessage :=
  match recentOverride with
  | some recent => recent
  | none => (stores.loadRecent chatId (max 1 (min recentMessagesLimit 128))).toOption.getD []

def importantOffset (chatId : String) : Option Nat :=
  (stores.getImportantOffset chatId).toOption.join

def buildContextMessages (chatId content : String) (recentMessagesLimit messagesMaxLen : Nat)
    (summaryText : Option String) (recentOverride : Option (List SessionMessage)) : List Message :=
  let recent := stores.recentMessages chatId recentMessagesLimit recentOverride
  let (messages, indices) := assembleMessages summaryText recent content
  let protectedIdx := protectedIndex indices (stores.importantOffset chatId)
  truncateMessagesToLen messages messagesMaxLen protectedIdx summaryText.isSome

end ContextStores
end Beetle.Memory
