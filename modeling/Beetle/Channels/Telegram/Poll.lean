import Beetle.Channels.Telegram.Send
import Beetle.Platform.PendingRetry

/-! One poll of Telegram: the updates of a batch are filtered and go to the inbound queue, or to the slot of
messages that are kept for another try. -/
namespace Beetle.Channels.Telegram
open Beetle.Lib Beetle.Bus Beetle.Platform.Storage

structure TelegramChat where
  id : Int
  type_ : Option String
  deriving DecidableEq

structure MessageEntity where
  type_ : String
  offset : Option Int
  length : Option Int
  deriving DecidableEq

structure TelegramPhotoSize where
  fileId : String
  width : Option Nat
  height : Option Nat
  fileSize : Option Nat
  deriving DecidableEq

structure TelegramAudio where
  fileId : String
  duration : Option Nat
  fileName : Option String
  mimeType : Option String
  fileSize : Option Nat
  deriving DecidableEq

structure TelegramVoice where
  fileId : String
  duration : Option Nat
  mimeType : Option String
  fileSize : Option Nat
  deriving DecidableEq

structure TelegramVideo where
  fileId : String
  width : Option Nat
  height : Option Nat
  duration : Option Nat
  fileName : Option String
  mimeType : Option String
  fileSize : Option Nat
  deriving DecidableEq

structure TelegramDocument where
  fileId : String
  fileName : Option String
  mimeType : Option String
  fileSize : Option Nat
  deriving DecidableEq

structure TelegramMessage where
  chat : TelegramChat
  messageId : Int
  messageThreadId : Option Int
  text : Option String
  entities : Option (List MessageEntity)
  caption : Option String
  captionEntities : Option (List MessageEntity)
  photo : Option (List TelegramPhotoSize)
  audio : Option TelegramAudio
  voice : Option TelegramVoice
  video : Option TelegramVideo
  document : Option TelegramDocument
  deriving DecidableEq

structure TelegramUpdate where
  updateId : Int
  message : Option TelegramMessage
  deriving DecidableEq

/-- A file that stays with Telegram. -/
structure MediaAssetRef where
  locator : String
  fileName : Option String
  mimeType : Option String
  sizeBytes : Option Nat
  widthPx : Option Nat
  heightPx : Option Nat
  durationMs : Option Nat
  deriving DecidableEq

/-- What an inbound message carries besides its texts. -/
structure TelegramDetails where
  chatId : String
  isGroup : Bool
  asset : Option MediaAssetRef
  platformThreadId : String
  platformMessageId : String
  inboundDedupKey : String
  enqueueTsMs : Nat
  deriving DecidableEq

abbrev TelegramMsg := PcMsg TelegramDetails

def captionBody (caption : Option String) : Option String := (caption.map trimStr).filter (· ≠ "")

def durationMs (durationSecs : Option Nat) : Option Nat := durationSecs.map fun duration => min (duration * 1000) (2 ^ 32 - 1)

/-- The area of a photo and the size of its file. -/
def TelegramPhotoSize.richness (photo : TelegramPhotoSize) : Nat × Nat :=
  (photo.width.getD 0 * photo.height.getD 0, photo.fileSize.getD 0)

/-- The last photo of those with the most area, and among these with the largest file. -/
def richestPhotoAsset (photoSizes : List TelegramPhotoSize) : Option MediaAssetRef :=
  let richer (best photo : TelegramPhotoSize) : Bool :=
    best.richness.1 < photo.richness.1 || (best.richness.1 = photo.richness.1 && best.richness.2 ≤ photo.richness.2)
  match photoSizes with
  | [] => none
  | photo :: photoSizes =>
    let photo := photoSizes.foldl (fun best photo => if richer best photo then photo else best) photo
    some ⟨photo.fileId, none, none, photo.fileSize, photo.width, photo.height, none⟩

def parseTelegramBody (maxContentLen : Nat) (message : TelegramMessage) :
    Option (CanonicalMessageBody × Option MediaAssetRef) :=
  match (message.text.map trimStr).filter (· ≠ "") with
  | some text =>
    some (.text (if text.utf8ByteSize > maxContentLen then truncateContentToMax text maxContentLen else text), none)
  | none =>
    let caption := captionBody message.caption
    match message.photo, message.audio, message.voice, message.video, message.document with
    | some photoSizes, _, _, _, _ =>
      (richestPhotoAsset photoSizes).map fun asset => (.image caption none, some asset)
    | none, some audio, _, _, _ =>
      some (.audio none caption,
        some ⟨audio.fileId, audio.fileName, audio.mimeType, audio.fileSize, none, none, durationMs audio.duration⟩)
    | none, none, some voice, _, _ =>
      some (.audio none caption,
        some ⟨voice.fileId, none, some (voice.mimeType.getD "audio/ogg"), voice.fileSize, none, none,
          durationMs voice.duration⟩)
    | none, none, none, some video, _ =>
      some (.video caption none none,
        some ⟨video.fileId, video.fileName, video.mimeType, video.fileSize, video.width, video.height,
          durationMs video.duration⟩)
    | none, none, none, none, some document =>
      some (.file caption document.fileName,
        some ⟨document.fileId, document.fileName, document.mimeType, document.fileSize, none, none, none⟩)
    | none, none, none, none, none => none

/-! The mention of the bot. -/

/-- What is behind the first `n` bytes, where these are whole characters. -/
def dropBytes : List Char → Nat → Option (List Char)
  | [], n => if n = 0 then some [] else none
  | c :: cs, n => if n = 0 then some (c :: cs) else if c.utf8Size ≤ n then dropBytes cs (n - c.utf8Size) else none

def takeBytes : List Char → Nat → Option (List Char)
  | [], n => if n = 0 then some [] else none
  | c :: cs, n =>
    if n = 0 then some [] else if c.utf8Size ≤ n then (takeBytes cs (n - c.utf8Size)).map (c :: ·) else none

def eqIgnoreAsciiCase (a b : List Char) : Bool := a.map Char.toLower = b.map Char.toLower

def messageMentionsBot (text : String) (entities : Option (List MessageEntity)) (botUsername : String) : Bool :=
  if botUsername = "" then false
  else
    let mention := '@' :: botUsername.toList
    if mention <:+: text.toList then true
    else
      (entities.getD []).any fun e =>
        e.type_ = "mention" &&
          match e.offset, e.length with
          | some o, some l =>
            0 ≤ o && 0 < l &&
              ((dropBytes text.toList o.toNat).bind (takeBytes · l.toNat)).any (eqIgnoreAsciiCase · mention)
          | _, _ => false

/-! Commands. -/

inductive Command where
  | activation (mode : String)
  | sessionClear
  | status

/-- The command that is carried out for a text, where there is one. -/
def command? (text : String) : Option Command :=
  if text.toList.head? ≠ some '/' then none
  else
    match (splitWhitespace text.toList).map String.ofList with
    | ["/activation", "mention"] => some (.activation "mention")
    | ["/activation", "always"] => some (.activation "always")
    | ["/session", "clear"] => some .sessionClear
    | ["/status"] => some .status
    | _ => none

/-! A batch. -/

/-- What a poll is given, and what is outside it by the place of the update in the batch: the clock, the answers of
the inbound queue to its tries and the failures of reading the slot. -/
structure PollEnv where
  pendingRetry : PendingRetryConfig TelegramDetails
  allowedChatIds : List String
  groupActivation : String
  botUsername : Option String
  cmdCtx : Bool
  currentUnixMs : Nat → Nat
  trySend : Nat → Nat → TrySend
  readFault : Nat → ReadFault
  parseUpdates : Bytes → Option (Option (List TelegramUpdate))

/-- What becomes of an update. -/
inductive Reading where
  | skipped
  | command (chatId : String) (command : Command)
  | message (pc : TelegramMsg)

namespace PollEnv
variable (env : PollEnv)

def maxContentLen : Nat := env.pendingRetry.maxContentLen

def isGroup (msg : TelegramMessage) : Bool := msg.chat.type_ = some "group" || msg.chat.type_ = some "supergroup"

/-- The message for the queue, when its content is not too long. -/
def buildMsg (place : Nat) (msg : TelegramMessage) (body : CanonicalMessageBody) (asset : Option MediaAssetRef) :
    Except Error TelegramMsg :=
  PcMsg.build env.maxContentLen body.textProjection body ⟨"telegram", toString msg.chat.id, isGroup msg, .user⟩ |>.map
    fun pc => ⟨pc.content, pc.body,
      { chatId := pc.details.chatId, isGroup := pc.details.isGroup, asset
        platformThreadId := (msg.messageThreadId.map toString).getD ""
        platformMessageId := toString msg.messageId
        inboundDedupKey := "telegram_message:" ++ toString msg.messageId
        enqueueTsMs := env.currentUnixMs place }⟩

/-- The filters of the loop, and what is parsed behind them. -/
def readMessage (place : Nat) (msg : TelegramMessage) : Reading :=
  let chatId := toString msg.chat.id
  if env.allowedChatIds = [] then .skipped
  else if chatId ∉ env.allowedChatIds then .skipped
  else
    let gatingText := (msg.text.or msg.caption).getD ""
    if gatingText = "" ∧ parseTelegramBody env.maxContentLen msg = none then .skipped
    else if isGroup msg && env.groupActivation = "mention" &&
        !messageMentionsBot gatingText (msg.entities.or msg.captionEntities) (env.botUsername.getD "") then .skipped
    else
      match if env.cmdCtx then msg.text.bind command? else none with
      | some command => .command chatId command
      | none =>
        match parseTelegramBody env.maxContentLen msg with
        | none => .skipped
        | some (body, asset) =>
          match env.buildMsg place msg body asset with
          | .ok pc => .message pc
          | .error _ => .skipped

def readUpdate (place : Nat) (u : TelegramUpdate) : Reading :=
  match u.message with
  | none => .skipped
  | some msg => env.readMessage place msg

end PollEnv

/-- The batch as far as it has been gone through. -/
structure Polled where
  nextOffset : Option Int
  enqueued : List TelegramMsg
  commands : List (String × Command)
  retry : PendingRetryState TelegramDetails

section
variable (env : PollEnv)

/-- The tries that are left: full while none of them is answered otherwise. -/
def tryEnqueue (trySend : Nat → TrySend) : Nat → Nat → TrySend
  | 0, _ => .full
  | tries + 1, attempt =>
    match trySend attempt with
    | .full => tryEnqueue trySend tries (attempt + 1)
    | answer => answer

def enqueueOrSave (place : Nat) (pc : TelegramMsg) (polled : Polled) : Polled :=
  match tryEnqueue (env.trySend place) 3 0 with
  | .sent => { polled with enqueued := polled.enqueued ++ [pc] }
  | .disconnected => polled
  | .full =>
    { polled with
      retry := (StoragePendingRetryStore.savePendingRetry env.pendingRetry polled.retry (env.readFault place) pc).1 }

def pollUpdate (polled : Polled) (u : TelegramUpdate × Nat) : Polled :=
  let polled := { polled with nextOffset := some (u.1.updateId + 1) }
  match env.readUpdate u.2 u.1 with
  | .skipped => polled
  | .command chatId command => { polled with commands := polled.commands ++ [(chatId, command)] }
  | .message pc => enqueueOrSave env u.2 pc polled

def pollUpdates (polled : Polled) (updates : List (TelegramUpdate × Nat)) : Polled :=
  updates.foldl (pollUpdate env) polled

/-- `response` is what the request for the updates behind the offset gives. -/
@[grind =] def pollTelegramOnce (offset : Option Int) (response : Except Error (Nat × Bytes))
    (retry : PendingRetryState TelegramDetails) : Except Error Polled :=
  match response with
  | .error e => .error (mapStage e "telegram_poll")
  | .ok (status, body) =>
    if status ≥ 400 then .error (.http status "telegram_poll")
    else
      match env.parseUpdates body with
      | none => .error (.other none "telegram_parse")
      | some result => .ok (pollUpdates env ⟨offset, [], [], retry⟩ (result.getD []).zipIdx)

end

end Beetle.Channels.Telegram
