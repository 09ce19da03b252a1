import Beetle.Memory.Session

/-! Session files: their paths, the JSONL lines in them and how they are read. -/
namespace Beetle.Platform.Storage
open Beetle.Lib Beetle.Memory

def maxChatIdFilenameLen : Nat := 20
def sessionFileExt : String := ".jsonl"
def chatIdHeaderPrefix : List Char := "# chat_id: ".toList
def sessionMessageIdPrefix : List Char := "msg_".toList
def sessionTailReadMaxBytes : Nat := 16 * 1024

structure StoredSessionMessage where
  messageId : String
  role : String
  content : String
  deriving DecidableEq

def StoredSessionMessage.toSessionMessage (message : StoredSessionMessage) : SessionMessage :=
  ⟨message.role, message.content⟩

def StoredSessionMessage.toSessionRecord (message : StoredSessionMessage) : SessionMessageRecord :=
  ⟨message.messageId, message.role, message.content⟩

/-- `serde_json` within a string. -/
def escapeChar (c : Char) : List Char :=
  match c.toNat with
  | 34 => ['\\', c]
  | 92 => ['\\', c]
  | 8 => ['\\', 'b']
  | 12 => ['\\', 'f']
  | 10 => ['\\', 'n']
  | 13 => ['\\', 'r']
  | 9 => ['\\', 't']
  | n => if n < 32 then '\\' :: 'u' :: hex 4 n else [c]

def escape (s : String) : List Char := s.toList.flatMap escapeChar

def jsonString (s : String) : List Char := '"' :: escape s ++ ['"']

def jsonField (name value : String) : List Char := jsonString name ++ ':' :: jsonString value

/-- `serde_json::to_string` of a message. -/
@[grind =] def StoredSessionMessage.toJson (message : StoredSessionMessage) : List Char :=
  '\x7b' :: jsonField "message_id" message.messageId ++ ',' :: jsonField "role" message.role ++
    ',' :: jsonField "content" message.content ++ ['\x7d']

/-- Reading JSON text back: `from_str` of a message, and the first item of a
stream of messages. -/
structure SerdeJson where
  fromStr : List Char → Option StoredSessionMessage
  firstOfStream : List Char → Option (Option StoredSessionMessage)
  fromStr_toJson : ∀ message, fromStr message.toJson = some message

/-- What is fixed while a store runs. `clock` gives the time at which the n-th
message id is made, in nanoseconds. Only the ESP targets read tails, and they
defer compaction. -/
structure SessionConfig where
  sessionsDir : String
  deferCompactOnAppend : Bool
  tailMaxBytes : Option Nat
  json : SerdeJson
  clock : Nat → Nat
  eager_reads_all : deferCompactOnAppend = false → tailMaxBytes = none

theorem unbounded_reads_all {deferred : Bool} (_ : deferred = false) : (none : Option Nat) = none := rfl

def fnv1aHash (s : String) : UInt32 :=
  (utf8 s.toList).foldl (fun h b => (h ^^^ b.toUInt32) * 16777619) 2166136261

def isChatIdChar (c : Char) : Bool := c.isAlphanum || c == '_' || c == '-' || c == '.' || c == ':'

/-- The file of a chat, and whether its first line names the chat. -/
def sessionPath (cfg : SessionConfig) (chatId : String) : Except Error (String × Bool) :=
  if chatId = "" then .error (.config "chat_id empty" "session_path")
  else if !chatId.toList.all isChatIdChar then
    .error (.config "chat_id contains invalid chars" "session_path")
  else
    let (filename, writeHeader) :=
      if (utf8 chatId.toList).length ≤ maxChatIdFilenameLen then (chatId ++ sessionFileExt, false)
      else (String.ofList (hex 8 (fnv1aHash chatId).toNat) ++ sessionFileExt, true)
    let path := cfg.sessionsDir ++ "/" ++ filename
    let len := (utf8 path.toList).length
    if 56 < len then .error (.config ("path too long (" ++ toString len ++ ")") "session_path")
    else .ok (path, writeHeader)

def nextSessionMessageId (clock : Nat → Nat) (counter : Nat) : String :=
  String.ofList (sessionMessageIdPrefix ++ hex 16 (min (clock counter) (2 ^ 64 - 1)) ++
    hex 8 (counter % 2 ^ 32))

def fromSessionMessages (clock : Nat → Nat) (counter : Nat) (messages : List SessionMessage) :
    List StoredSessionMessage :=
  messages.mapIdx fun i message =>
    ⟨nextSessionMessageId clock (counter + i), message.role, message.content⟩

/-- The line of a message, refused when it is too long. -/
def sessionLine (stage : String) (message : StoredSessionMessage) : Except Error Bytes :=
  let line := utf8 message.toJson
  if line.length > maxSessionMessageLen then
    .error (.config ("message serialized len " ++ toString line.length ++ " exceeds " ++
      toString maxSessionMessageLen) stage)
  else .ok line

inductive ParsedJsonlLine where
  | ignored
  | message (message : StoredSessionMessage)
  | repairedMessage (message : StoredSessionMessage)
  | invalid

def isBlank (s : String) : Bool := trim s.toList = []

def normalizeParsedMessage (freshId : String) (message : StoredSessionMessage) : ParsedJsonlLine :=
  if isBlank message.role ∧ isBlank message.content then .ignored
  else if isBlank message.messageId then .repairedMessage { message with messageId := freshId }
  else .message message

def parseJsonlLine (json : SerdeJson) (freshId : String) (line : List Char) : ParsedJsonlLine :=
  let line := trim line
  if line = [] ∨ line.head? = some '#' then .ignored
  else
    match json.fromStr line with
    | some message => normalizeParsedMessage freshId message
    | none =>
      match json.firstOfStream line with
      | some (some message) => normalizeParsedMessage freshId message
      | some none => .invalid
      | none => .ignored

def parseChatIdHeader (line : List Char) : Option (List Char) :=
  match chatIdHeaderPrefix.isPrefixOf? (trim line) with
  | some stripped => if trim stripped = [] then none else some (trim stripped)
  | none => none

structure SessionFileSnapshot where
  messages : List StoredSessionMessage
  messageCount : Nat
  hasData : Bool
  endsWithNewline : Bool
  needsRepair : Bool

/-- The variables of the two scanning loops; `counter` counts the ids made so far. -/
structure Scan where
  messages : List StoredSessionMessage
  messageCount : Nat
  first : Bool
  overflowed : Bool
  needsRepair : Bool
  counter : Nat

def Scan.push (cap : Nat) (message : StoredSessionMessage) (s : Scan) : Scan :=
  let full := s.messages.length = cap
  { s with
    messages := (if full then s.messages.tail else s.messages) ++ [message]
    messageCount := min (s.messageCount + 1) maxSessionEntries
    overflowed := s.overflowed || full }

@[grind =] def scanLine (cfg : SessionConfig) (cap : Nat) (s : Scan) (rawLine : Bytes) : Scan :=
  if rawLine = [] then s
  else
    match fromUtf8 rawLine with
    | none => { s with first := false, needsRepair := true }
    | some line =>
      let trimmed := trim line
      if trimmed = [] then s
      else if s.first && (parseChatIdHeader trimmed).isSome then { s with first := false }
      else
        match parseJsonlLine cfg.json (nextSessionMessageId cfg.clock s.counter) trimmed with
        | .ignored => { s with first := false }
        | .message message => { s with first := false }.push cap message
        | .repairedMessage message =>
          { s with first := false, needsRepair := true, counter := s.counter + 1 }.push cap message
        | .invalid => { s with first := false, needsRepair := true }

def endsWithNewline (buf : Bytes) : Bool := buf.getLast? = some lf

/-- The last line lacks its newline. -/
def unfinished (buf : Bytes) : Bool := buf ≠ [] && !endsWithNewline buf

/-- The counter goes through, as unnamed messages get ids. -/
def scanSessionFile (cfg : SessionConfig) (counter : Nat) (buf : Bytes) : SessionFileSnapshot × Nat :=
  let start : Scan := ⟨[], 0, true, false, unfinished buf, counter⟩
  let s := (buf.splitOn lf).foldl (scanLine cfg maxSessionEntries) start
  (⟨s.messages, s.messages.length, buf ≠ [], endsWithNewline buf, s.needsRepair || s.overflowed⟩, s.counter)

def scanSessionTail (cfg : SessionConfig) (counter : Nat) (buf : Bytes) (limit : Nat)
    (tailTruncated : Bool) : SessionFileSnapshot × Nat :=
  let cap := max 1 (min limit maxSessionEntries)
  let start : Scan := ⟨[], 0, !tailTruncated, false, unfinished buf, counter⟩
  -- a truncated tail starts amid a line
  let lines := if tailTruncated then (buf.splitOn lf).tail else buf.splitOn lf
  let s := lines.foldl (scanLine cfg cap) start
  let messageCount := if tailTruncated && 0 < s.messageCount then maxSessionEntries else s.messageCount
  (⟨s.messages, messageCount, buf ≠ [], endsWithNewline buf, s.needsRepair⟩, s.counter)

/-- The bytes that a bounded read sees, and whether it left some out before them. -/
def readSessionRecentBytes (cfg : SessionConfig) (file : Bytes) : Bytes × Bool :=
  match cfg.tailMaxBytes with
  | none => (file, false)
  | some maxBytes =>
    let offset := file.length - min file.length (max maxBytes 1)
    (file.drop offset, 0 < offset)

structure SessionAppendState where
  messageCount : Nat
  hasData : Bool
  endsWithNewline : Bool
  deriving DecidableEq

namespace SessionAppendState

def default : SessionAppendState := ⟨0, false, false⟩

def fromObservedSnapshot (snapshot : SessionFileSnapshot) : SessionAppendState :=
  ⟨snapshot.messageCount, snapshot.hasData, snapshot.endsWithNewline⟩

def fromWrittenMessages (messageCount : Nat) (hasData : Bool) : SessionAppendState :=
  ⟨messageCount, hasData, hasData⟩

def afterAppending (state : SessionAppendState) (appendedMessages : Nat) : SessionAppendState :=
  let hasData := state.hasData || 0 < appendedMessages
  ⟨min (state.messageCount + appendedMessages) maxSessionEntries, hasData, hasData⟩

end SessionAppendState

def observeSessionAppendState (cfg : SessionConfig) (counter : Nat) :
    Option Bytes → SessionAppendState × Nat
  | none => (.default, counter)
  | some file =>
    if file = [] then (.default, counter)
    else
      let (buf, tailTruncated) := readSessionRecentBytes cfg file
      let (snapshot, counter) := scanSessionTail cfg counter buf maxSessionEntries tailTruncated
      (.fromObservedSnapshot snapshot, counter)

def chatIdHeader (chatId : String) : Bytes := utf8 (chatIdHeaderPrefix ++ chatId.toList) ++ [lf]

/-- The whole file anew. -/
def writeSessionMessages (chatId : String) (writeHeader : Bool) (messages : List StoredSessionMessage) :
    Except Error (Bytes × SessionAppendState) :=
  match messages.mapM (sessionLine "session_write") with
  | .error e => .error e
  | .ok lines =>
    let body := (if writeHeader then chatIdHeader chatId else []) ++ unlines lines
    .ok (body, .fromWrittenMessages messages.length (body ≠ []))

/-- The file with lines added at its end; it is made if it is not there. -/
def appendSessionLines (file : Option Bytes) (chatId : String) (writeHeader prependNewline : Bool)
    (lines : List Bytes) : Bytes :=
  let old := file.getD []
  old ++ (if old = [] ∧ writeHeader then chatIdHeader chatId else []) ++
    (if old ≠ [] ∧ prependNewline then [lf] else []) ++ unlines lines

end Beetle.Platform.Storage
