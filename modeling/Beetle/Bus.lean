import Beetle.Util

/-! The messages of the bus, and what reading one back from JSON makes of it. -/
namespace Beetle.Bus

/-- The texts of a message body, which its projection is made from. -/
inductive CanonicalMessageBody where
  | text (body : String)
  | image (caption fileName : Option String)
  | audio (transcriptText caption : Option String)
  | video (caption title description : Option String)
  | file (caption fileName : Option String)
  | card (fallbackText : String)
  | platformNative (fallbackText : String)
  deriving DecidableEq

def isBlankText (s : String) : Bool := trimStr s = ""

def firstNonemptyProjection (candidates : List (Option String)) : String :=
  ((candidates.filterMap id).map trimStr |>.find? (· ≠ "")).getD ""

def fallbackProjection (fallbackText default : String) : String :=
  if isBlankText fallbackText then default else trimStr fallbackText

def joinNonemptyLines (parts : List (Option String)) : Option String :=
  let normalized := ((parts.filterMap id).map trimStr).filter (· ≠ "")
  if normalized = [] then none else some ("\n".intercalate normalized)

def mediaCaptionProjection (caption fileName : Option String) (default : String) : String :=
  match caption.filter fun caption => !isBlankText caption with
  | some caption => caption
  | none =>
    match (fileName.map trimStr).filter (· ≠ "") with
    | some fileName => default ++ " " ++ fileName
    | none => default

def CanonicalMessageBody.textProjection : CanonicalMessageBody → String
  | text body => body
  | image caption fileName => mediaCaptionProjection caption fileName "[image]"
  | audio transcriptText caption => firstNonemptyProjection [transcriptText, caption, some "[audio]"]
  | video caption title description =>
    match caption.filter fun caption => !isBlankText caption with
    | some caption => caption
    | none => (joinNonemptyLines [title, description]).getD "[video]"
  | file caption fileName => mediaCaptionProjection caption fileName "[file]"
  | card fallbackText => fallbackProjection fallbackText "[card]"
  | platformNative fallbackText => fallbackProjection fallbackText "[platform_native]"

/-- `details` stands for the fields that are only carried. -/
structure PcMsg (D : Type) where
  content : String
  body : CanonicalMessageBody
  details : D
  deriving DecidableEq

/-- A message as its JSON text has it. -/
structure RawPcMsg (D : Type) where
  content : String
  body : Option CanonicalMessageBody
  details : D
  deriving DecidableEq

namespace PcMsg
variable {D : Type}

/-- `PcMsg::deserialize`. -/
def deserialize (raw : RawPcMsg D) : PcMsg D :=
  let body := raw.body.getD (.text raw.content)
  ⟨if isBlankText raw.content then body.textProjection else raw.content, body, raw.details⟩

def serialize (msg : PcMsg D) : RawPcMsg D := ⟨msg.content, some msg.body, msg.details⟩

/-- What becomes of a message that is written and read back. -/
def reread (msg : PcMsg D) : PcMsg D := deserialize msg.serialize

theorem reread_deserialize (raw : RawPcMsg D) : (deserialize raw).reread = deserialize raw := by
  simp only [reread, serialize, deserialize, Option.getD_some, mk.injEq, and_true]
  by_cases hblank : isBlankText raw.content = true
  · simp [hblank]
  · simp [hblank]

theorem reread_reread (msg : PcMsg D) : msg.reread.reread = msg.reread := reread_deserialize _

end PcMsg

inductive IngressKind where
  | user
  | system

/-- What a message that is built here carries besides its texts. -/
structure InboundDetails where
  channel : String
  chatId : String
  isGroup : Bool
  ingress : IngressKind

abbrev InboundMsg := PcMsg InboundDetails

def PcMsg.build (maxContentLen : Nat) (content : String) (body : CanonicalMessageBody) (details : InboundDetails) :
    Except Error InboundMsg :=
  if content.utf8ByteSize > maxContentLen then
    .error (.config s!"content length {content.utf8ByteSize} exceeds max {maxContentLen}" "PcMsg::build")
  else .ok ⟨content, body, details⟩

def PcMsg.newInboundWithIngress (maxContentLen : Nat) (channel chatId content : String) (isGroup : Bool)
    (ingress : IngressKind) : Except Error InboundMsg :=
  build maxContentLen content (.text content) ⟨channel, chatId, isGroup, ingress⟩

/-- What the inbound queue answers to a message. -/
inductive TrySend where
  | sent
  | full
  | disconnected
  deriving DecidableEq

end Beetle.Bus
