import Beetle.Calendar.Ical
import Beetle.Lib.Ranking
import Beetle.Memory.Session
import Beetle.Memory.TurnLedger
import Mathlib.Data.Prod.Lex

/-! The archive: what can be found again of the chats, the daily notes and the turns, and how a record of it is
named. -/
namespace Beetle.Memory.Archive
open Beetle.Lib Beetle.Calendar.Caldav

def maxArchiveGetContentLen : Nat := 4 * 1024

inductive ArchiveRecordSource where
  | transcript
  | dailyNote
  | turnLog
  deriving DecidableEq

def ArchiveRecordSource.label : ArchiveRecordSource → List Char
  | .transcript => "transcript".toList
  | .dailyNote => "daily_note".toList
  | .turnLog => "turn_log".toList

def ArchiveRecordSource.ofLabel (head : List Char) : Option ArchiveRecordSource :=
  [.transcript, .dailyNote, .turnLog].find? fun source => source.label = head

@[simp] theorem ArchiveRecordSource.ofLabel_label (source : ArchiveRecordSource) :
    ArchiveRecordSource.ofLabel source.label = some source := by
  cases source <;> decide

structure ArchiveRecordLocator where
  source : ArchiveRecordSource
  chatId : Option (List Char)
  messageId : Option (List Char)
  messageIndex : Option Nat
  noteName : Option (List Char)
  reqId : Option (List Char)
  deriving DecidableEq

namespace ArchiveRecordLocator

def recordId (l : ArchiveRecordLocator) : List Char :=
  match l.source with
  | .transcript =>
    match l.messageId with
    | some messageId => l.source.label ++ '|' :: (l.chatId.getD [] ++ '|' :: ("msg".toList ++ '|' :: messageId))
    | none => l.source.label ++ '|' :: (l.chatId.getD [] ++ '|' :: decimal (l.messageIndex.getD 0))
  | .dailyNote => l.source.label ++ '|' :: l.noteName.getD []
  | .turnLog => l.source.label ++ '|' :: (l.chatId.getD [] ++ '|' :: l.reqId.getD "latest".toList)

def citation (l : ArchiveRecordLocator) : List Char :=
  match l.source with
  | .transcript =>
    match l.messageId with
    | some messageId => "transcript:".toList ++ (l.chatId.getD "unknown".toList ++ ("#message_id=".toList ++ messageId))
    | none =>
      "transcript:".toList ++ (l.chatId.getD "unknown".toList ++ ("#message=".toList ++ decimal (l.messageIndex.getD 0)))
  | .dailyNote => "daily_note:".toList ++ l.noteName.getD "unknown".toList
  | .turnLog =>
    "turn_log:".toList ++ (l.chatId.getD "unknown".toList ++ ("#req=".toList ++ l.reqId.getD "latest".toList))

/-- What is made of the parts behind the label. Those behind the last one that a kind reads are left unread. -/
def parseParts : ArchiveRecordSource → List (List Char) → Option ArchiveRecordLocator
  | .transcript, chatId :: identity :: more =>
    if trim identity = "msg".toList then
      match more with
      | messageId :: _ => some ⟨.transcript, some (trim chatId), some (trim messageId), none, none, none⟩
      | [] => none
    else some ⟨.transcript, some (trim chatId), none, parseUnsigned 64 (trim identity), none, none⟩
  | .dailyNote, noteName :: _ => some ⟨.dailyNote, none, none, none, some (trim noteName), none⟩
  | .turnLog, chatId :: reqId :: _ => some ⟨.turnLog, some (trim chatId), none, none, none, some (trim reqId)⟩
  | _, _ => none

def parseRecordId (value : List Char) : Option ArchiveRecordLocator :=
  match value.splitOn '|' with
  | [] => none
  | head :: parts => (ArchiveRecordSource.ofLabel head).bind fun source => parseParts source parts

end ArchiveRecordLocator

/-- What a search looks at, without the texts and lengths that only its scores are made of. -/
structure ArchiveSearchCandidate where
  locator : ArchiveRecordLocator
  title : List Char
  content : List Char
  cues : List (List Char)
  observedAt : Option Nat
  currentChatMatch : Bool
  backendFtsScore : Nat

/-- Every candidate is made with the source of its locator. -/
def ArchiveSearchCandidate.source (candidate : ArchiveSearchCandidate) : ArchiveRecordSource := candidate.locator.source

structure ArchiveSearchQuery where
  query : List Char
  preferredChatId : Option (List Char)
  chatIdFilter : Option (List Char)
  sources : List ArchiveRecordSource
  limit : Nat

/-- The source list of a query, which asks for every source when it is empty. -/
def ArchiveSearchQuery.wants (query : ArchiveSearchQuery) (source : ArchiveRecordSource) : Bool :=
  query.sources.isEmpty || query.sources.contains source

/-- The three stores, as they are read. `load_recent_records` is asked for `MAX_SESSION_ENTRIES` messages, and
`list_daily_note_names` for all the names. -/
structure Corpus (D : Type) where
  listChatIds : Except Error (List (List Char))
  loadRecentRecords : List Char → Except Error (List SessionMessageRecord)
  listDailyNoteNames : Except Error (List (List Char))
  getDailyNote : List Char → Except Error (List Char)
  turnLedger : List Char → Except Error (Option (TurnLedger D))

/-- How a text is put in capitals, what is written of a turn ledger, and the line of a content that is shown for the terms
of a query. -/
structure ArchiveTexts (D : Type) where
  toUppercase : List Char → List Char
  renderTurnLogContent : TurnLedger D → List Char
  pickArchiveExcerpt : List (List Char) → List Char → List Char

section Dates

def ymdToUnixSecs (year : Int) (month day : Nat) : Option Nat :=
  if year < 1970 then none else some (min ((daysFromEpoch year month day).toNat * 86400) (2 ^ 64 - 1))

def parseDailyNoteObservedAt (name : List Char) : Option Nat :=
  let stem := if ".md".toList <:+ name then name.take (name.length - 3) else name
  match stem.splitOn '-' with
  | year :: month :: day :: _ => do
    let year ← parseI32 year
    let month ← parseU32 month
    let day ← parseU32 day
    if 1 ≤ month ∧ month ≤ 12 ∧ 1 ≤ day ∧ day ≤ 31 then ymdToUnixSecs year month day else none
  | _ => none

end Dates

def turnLogStatusLabel : TurnLedgerStatus → List Char
  | .running => "running".toList
  | .answered => "answered".toList
  | .interrupted => "interrupted".toList
  | .failed => "failed".toList

variable {D : Type}

def turnLogObservedAt (ledger : TurnLedger D) : Option Nat :=
  if 0 < turnLedgerObservedAtMs ledger then some (turnLedgerObservedAtMs ledger / 1000) else none

/-! Collecting. -/

/-- The results of a call on each element, one after another; the first error ends it. -/
def gather {α β : Type} (f : α → Except Error (List β)) : List α → Except Error (List β)
  | [] => .ok []
  | a :: l => do
    let bs ← f a
    let rest ← gather f l
    .ok (bs ++ rest)

/-- The chats that are looked through: the one of the filter, or all of them with the preferred one first, whether it is
listed or not. -/
def collectArchiveChatIds (corpus : Corpus D) (preferredChatId chatIdFilter : Option (List Char)) :
    Except Error (List (List Char)) :=
  match (chatIdFilter.map trim).filter (· ≠ []) with
  | some chatId => .ok [chatId]
  | none => do
    let chatIds ← corpus.listChatIds.mapError (Error.withStage "archive_search_chat_ids")
    match (preferredChatId.map trim).filter (· ≠ []) with
    | some preferred => .ok (preferred :: chatIds.filter (· ≠ preferred))
    | none => .ok chatIds

def currentChatCues (preferredChatId : Option (List Char)) (chatId : List Char) : List (List Char) :=
  if preferredChatId = some chatId then ["current chat".toList] else []

/-- The record of a message. A blank message has none. -/
def transcriptCandidate (texts : ArchiveTexts D) (preferredChatId : Option (List Char)) (chatId : List Char)
    (index : Nat) (message : SessionMessageRecord) : Option ArchiveSearchCandidate :=
  let content := trim message.content.toList
  if content = [] then none
  else some
    { locator := ⟨.transcript, some chatId, some message.messageId.toList, some index, none, none⟩
      title := texts.toUppercase message.role.toList ++ (" in ".toList ++ chatId)
      content
      cues := "recent transcript".toList :: currentChatCues preferredChatId chatId
      observedAt := none
      currentChatMatch := preferredChatId = some chatId
      backendFtsScore := 0 }

def transcriptCandidates (texts : ArchiveTexts D) (corpus : Corpus D) (preferredChatId : Option (List Char))
    (chatId : List Char) : Except Error (List ArchiveSearchCandidate) := do
  let messages ← (corpus.loadRecentRecords chatId).mapError (Error.withStage "archive_search_transcript")
  .ok (messages.zipIdx.filterMap fun (message, index) => transcriptCandidate texts preferredChatId chatId index message)

def dailyNoteCandidate (name content : List Char) : Option ArchiveSearchCandidate :=
  let content := trim content
  if content = [] then none
  else
    let observedAt := parseDailyNoteObservedAt name
    some
      { locator := ⟨.dailyNote, none, none, none, some name, none⟩
        title := name
        content
        cues := "daily archive context".toList :: (if observedAt.isSome then ["dated note".toList] else [])
        observedAt
        currentChatMatch := false
        backendFtsScore := 0 }

def dailyNoteCandidates (corpus : Corpus D) (name : List Char) : Except Error (List ArchiveSearchCandidate) := do
  let content ← (corpus.getDailyNote name).mapError (Error.withStage "archive_search_daily_note_read")
  .ok (dailyNoteCandidate name content).toList

def collectDailyNotes (corpus : Corpus D) : Except Error (List ArchiveSearchCandidate) := do
  let names ← corpus.listDailyNoteNames.mapError (Error.withStage "archive_search_daily_notes")
  gather (dailyNoteCandidates corpus) names

def turnLogCandidate (texts : ArchiveTexts D) (preferredChatId : Option (List Char)) (chatId : List Char)
    (ledger : TurnLedger D) : Option ArchiveSearchCandidate :=
  let content := texts.renderTurnLogContent ledger
  if content = [] then none
  else some
    { locator := ⟨.turnLog, some chatId, none, none, none, some ledger.reqId.toList⟩
      title := turnLogStatusLabel ledger.status ++ (" turn in ".toList ++ chatId)
      content
      cues := "execution log".toList :: currentChatCues preferredChatId chatId
      observedAt := turnLogObservedAt ledger
      currentChatMatch := preferredChatId = some chatId
      backendFtsScore := 0 }

def turnLogCandidates (texts : ArchiveTexts D) (corpus : Corpus D) (preferredChatId : Option (List Char))
    (chatId : List Char) : Except Error (List ArchiveSearchCandidate) := do
  let ledger ← (corpus.turnLedger chatId).mapError (Error.withStage "archive_search_turn_log")
  .ok (ledger.bind (turnLogCandidate texts preferredChatId chatId)).toList

/-- A list that is only asked for when it is wanted. -/
def whenWanted {α : Type} (wanted : Bool) (list : Except Error (List α)) : Except Error (List α) :=
  if wanted then list else .ok []

def collectLiveArchiveCandidates (texts : ArchiveTexts D) (corpus : Corpus D) (query : ArchiveSearchQuery) :
    Except Error (List ArchiveSearchCandidate) := do
  let chatIds ← whenWanted (query.wants .transcript || query.wants .turnLog)
    (collectArchiveChatIds corpus query.preferredChatId query.chatIdFilter)
  let transcripts ← whenWanted (query.wants .transcript)
    (gather (transcriptCandidates texts corpus query.preferredChatId) chatIds)
  let dailyNotes ← whenWanted (query.wants .dailyNote) (collectDailyNotes corpus)
  let turnLogs ← whenWanted (query.wants .turnLog)
    (gather (turnLogCandidates texts corpus query.preferredChatId) chatIds)
  .ok (transcripts ++ dailyNotes ++ turnLogs)

theorem collect_eq_ok {texts : ArchiveTexts D} {corpus : Corpus D} {query : ArchiveSearchQuery}
    {live : List ArchiveSearchCandidate} (h : collectLiveArchiveCandidates texts corpus query = .ok live) :
    ∃ chatIds transcripts dailyNotes turnLogs,
      whenWanted (query.wants .transcript || query.wants .turnLog)
        (collectArchiveChatIds corpus query.preferredChatId query.chatIdFilter) = .ok chatIds ∧
      whenWanted (query.wants .transcript) (gather (transcriptCandidates texts corpus query.preferredChatId) chatIds) =
        .ok transcripts ∧
      whenWanted (query.wants .dailyNote) (collectDailyNotes corpus) = .ok dailyNotes ∧
      whenWanted (query.wants .turnLog) (gather (turnLogCandidates texts corpus query.preferredChatId) chatIds) =
        .ok turnLogs ∧ live = transcripts ++ dailyNotes ++ turnLogs := by
  obtain ⟨chatIds, hchatIds, h⟩ := except_bind_ok h
  obtain ⟨transcripts, htranscripts, h⟩ := except_bind_ok h
  obtain ⟨dailyNotes, hdailyNotes, h⟩ := except_bind_ok h
  obtain ⟨turnLogs, hturnLogs, h⟩ := except_bind_ok h
  cases h
  exact ⟨chatIds, transcripts, dailyNotes, turnLogs, hchatIds, htranscripts, hdailyNotes, hturnLogs, rfl⟩

/-! Opening a record. -/

structure ArchiveRecord where
  recordId : List Char
  citation : List Char
  locator : ArchiveRecordLocator
  source : ArchiveRecordSource
  title : List Char
  excerpt : List Char
  content : List Char
  contentTruncated : Bool
  cues : List (List Char)
  observedAt : Option Nat

/-- `max_content_chars.clamp(256, MAX_ARCHIVE_GET_CONTENT_LEN)`. -/
def contentLimit (maxContentChars : Nat) : Nat := max 256 (min maxContentChars maxArchiveGetContentLen)

def buildArchiveRecord (texts : ArchiveTexts D) (locator : ArchiveRecordLocator) (title content : List Char)
    (cues : List (List Char)) (observedAt : Option Nat) (excerptTerms : List (List Char)) (maxContentChars : Nat) :
    ArchiveRecord :=
  let shown := content.take maxContentChars
  { recordId := locator.recordId
    citation := locator.citation
    locator
    source := locator.source
    title
    excerpt := texts.pickArchiveExcerpt excerptTerms shown
    content := shown
    contentTruncated := maxContentChars < content.length
    cues
    observedAt }

/-- The message that a locator names: by its id, and by its index where it has no id. -/
def findMessage (locator : ArchiveRecordLocator) (messages : List SessionMessageRecord) : Option SessionMessageRecord :=
  match locator.messageId with
  | some messageId => messages.find? fun message => message.messageId.toList = messageId
  | none => locator.messageIndex.bind fun index => messages[index]?

/-- `req_id` names the ledger, or does not say which one it wants. -/
def namesLedger (reqId : Option (List Char)) (ledger : TurnLedger D) : Bool :=
  match reqId with
  | none => true
  | some reqId => trim reqId = [] || trim reqId = "latest".toList || ledger.reqId.toList = trim reqId

@[grind =] def getArchiveRecord (texts : ArchiveTexts D) (corpus : Corpus D) (locator : ArchiveRecordLocator)
    (terms : List (List Char)) (maxContentChars : Nat) : Except Error (Option ArchiveRecord) :=
  match locator.source with
  | .transcript =>
    match locator.chatId with
    | none => .ok none
    | some chatId => do
      let messages ← corpus.loadRecentRecords chatId
      match findMessage locator messages with
      | none => .ok none
      | some message =>
        let content := trim message.content.toList
        if content = [] then .ok none
        else .ok (some (buildArchiveRecord texts locator (texts.toUppercase message.role.toList ++ (" in ".toList ++ chatId))
          content ["recent transcript".toList] none terms (contentLimit maxContentChars)))
  | .dailyNote =>
    match locator.noteName with
    | none => .ok none
    | some noteName => do
      let content ← corpus.getDailyNote noteName
      let content := trim content
      if content = [] then .ok none
      else .ok (some (buildArchiveRecord texts locator noteName content ["daily archive context".toList]
        (parseDailyNoteObservedAt noteName) terms (contentLimit maxContentChars)))
  | .turnLog =>
    match locator.chatId with
    | none => .ok none
    | some chatId => do
      match ← corpus.turnLedger chatId with
      | none => .ok none
      | some ledger =>
        if !namesLedger locator.reqId ledger then .ok none
        else
          let content := texts.renderTurnLogContent ledger
          if content = [] then .ok none
          else .ok (some (buildArchiveRecord texts locator (turnLogStatusLabel ledger.status ++ (" turn in ".toList ++ chatId))
            content ["execution log".toList] (turnLogObservedAt ledger) terms (contentLimit maxContentChars)))

end Beetle.Memory.Archive

/-! The index of the archive, and what a search finds in it. -/
namespace Beetle.Memory.Archive
open Beetle.Lib

def maxArchiveSearchLimit : Nat := 8

structure PreparedArchiveSearchQuery where
  raw : ArchiveSearchQuery
  limit : Nat
  weakQuery : Bool

def PreparedArchiveSearchQuery.new (raw : ArchiveSearchQuery) (terms : List (List Char)) : PreparedArchiveSearchQuery :=
  ⟨raw, max 1 (min raw.limit maxArchiveSearchLimit), trim raw.query = [] || terms.isEmpty⟩

/-- A row of `archive_documents`, and of the table for the full text search that goes with it. -/
structure ArchiveDocument where
  rowid : Nat
  locator : ArchiveRecordLocator
  title : List Char
  content : List Char
  cues : List (List Char)
  observedAt : Option Nat
  deriving DecidableEq

/-- The column `record_id`, which is written from the locator. -/
def ArchiveDocument.recordId (d : ArchiveDocument) : List Char := d.locator.recordId

/-- The rows of the index; the record id is their primary key. -/
structure ArchiveIndex where
  documents : List ArchiveDocument
  recordIds : (documents.map ArchiveDocument.recordId).Nodup
  rowids : (documents.map ArchiveDocument.rowid).Nodup

/-- What SQLite is asked for: which rows an expression matches, the `bm25` of a row, and the rows in the order of their
rank. The rank is a number `R`, of which a candidate keeps the score. -/
structure FullTextSearch (R : Type) [LinearOrder R] where
  isMatch : List Char → ArchiveDocument → Bool
  bm25 : List ArchiveDocument → List Char → ArchiveDocument → R
  orderByRank : List ArchiveDocument → List Char → List ArchiveDocument → List ArchiveDocument
  score : R → Nat
  perm (documents : List ArchiveDocument) (expression : List Char) (rows : List ArchiveDocument) :
    (orderByRank documents expression rows).Perm rows
  ordered (documents : List ArchiveDocument) (expression : List Char) (rows : List ArchiveDocument) :
    (orderByRank documents expression rows).Pairwise fun a b => bm25 documents expression a ≤ bm25 documents expression b

/-- A term between quotes, its own quotes doubled. -/
def quotedTerm (term : List Char) : Option (List Char) :=
  let escaped := term.flatMap fun c => if c = '"' then ['"', '"'] else [c]
  if trim escaped = [] then none else some ('"' :: escaped ++ ['"'])

def archiveSqliteMatchExpression (terms : List (List Char)) : Option (List Char) :=
  let parts := terms.filterMap quotedTerm
  if parts = [] then none else some (List.intercalate " OR ".toList parts)

def mapArchiveSqliteCandidateRow (preferredChatId : Option (List Char)) (sqliteFtsScore : Nat) (d : ArchiveDocument) :
    ArchiveSearchCandidate :=
  { locator := d.locator
    title := d.title
    content := d.content
    cues := d.cues
    observedAt := d.observedAt
    currentChatMatch := d.locator.chatId.isSome && d.locator.chatId = preferredChatId
    backendFtsScore := sqliteFtsScore }

/-- The candidates that have been found, one for each record id. A second one takes the place of the first when its score
is higher. -/
def upsertArchiveCandidate : List ArchiveSearchCandidate → ArchiveSearchCandidate → List ArchiveSearchCandidate
  | [], candidate => [candidate]
  | found :: out, candidate =>
    if found.locator.recordId = candidate.locator.recordId then
      (if found.backendFtsScore < candidate.backendFtsScore then candidate else found) :: out
    else found :: upsertArchiveCandidate out candidate

def archiveCandidateMatchesQuery (candidate : ArchiveSearchCandidate) (query : ArchiveSearchQuery) : Bool :=
  (match query.chatIdFilter with
    | some chatIdFilter => candidate.locator.chatId = some chatIdFilter
    | none => true) && query.wants candidate.source

/-- One turn of the loops over the rows. -/
def takeRow (query : ArchiveSearchQuery) (out : List ArchiveSearchCandidate) (candidate : ArchiveSearchCandidate) :
    List ArchiveSearchCandidate :=
  if archiveCandidateMatchesQuery candidate query then upsertArchiveCandidate out candidate else out

/-- `ORDER BY observed_at DESC, rowid DESC`; a row without a time comes last. -/
def ArchiveDocument.recency (d : ArchiveDocument) : Nat ×ₗ Nat :=
  toLex ((match d.observedAt with | some observedAt => observedAt + 1 | none => 0), d.rowid)

section Query
variable {R : Type} [LinearOrder R] (fts : FullTextSearch R)

def ArchiveIndex.matches (index : ArchiveIndex) (expression : List Char) : List ArchiveDocument :=
  index.documents.filter (fts.isMatch expression)

/-- The matching rows in the order of their rank. -/
def ArchiveIndex.ranked (index : ArchiveIndex) (expression : List Char) : List ArchiveDocument :=
  fts.orderByRank index.documents expression (index.matches fts expression)

def bestMatches (index : ArchiveIndex) (query : PreparedArchiveSearchQuery) (terms : List (List Char)) :
    List ArchiveSearchCandidate :=
  if query.weakQuery then []
  else
    match archiveSqliteMatchExpression terms with
    | none => []
    | some expression =>
      ((index.ranked fts expression).take 48).map fun d =>
        mapArchiveSqliteCandidateRow query.raw.preferredChatId (fts.score (fts.bm25 index.documents expression d)) d

def newestRows (index : ArchiveIndex) (query : PreparedArchiveSearchQuery) : List ArchiveSearchCandidate :=
  ((sortDescending ArchiveDocument.recency index.documents).take 64).map
    (mapArchiveSqliteCandidateRow query.raw.preferredChatId 0)

def queryArchiveCandidatesSqlite (index : ArchiveIndex) (query : PreparedArchiveSearchQuery) (terms : List (List Char)) :
    List ArchiveSearchCandidate :=
  let out := (bestMatches fts index query terms).foldl (takeRow query.raw) []
  (newestRows index query).foldl (takeRow query.raw) out

end Query

/-! What the loops keep. -/

variable {query : ArchiveSearchQuery} {out : List ArchiveSearchCandidate} {candidate c : ArchiveSearchCandidate}
  {rows : List ArchiveSearchCandidate}

theorem mem_upsertArchiveCandidate (h : c ∈ upsertArchiveCandidate out candidate) : c ∈ out ∨ c = candidate := by
  induction out with
  | nil => exact .inr (List.mem_singleton.mp h)
  | cons found out ih =>
    rw [upsertArchiveCandidate] at h
    split at h
    · rcases List.mem_cons.mp h with rfl | h
      · split
        · exact .inr rfl
        · exact .inl List.mem_cons_self
      · exact .inl (List.mem_cons_of_mem _ h)
    · rcases List.mem_cons.mp h with rfl | h
      · exact .inl List.mem_cons_self
      · exact (ih h).imp_left (List.mem_cons_of_mem _)

/-- A record id stays where it was, and the one of the candidate is there afterwards. -/
theorem recordId_mem_upsertArchiveCandidate (out : List ArchiveSearchCandidate) (candidate : ArchiveSearchCandidate)
    {id : List Char} (h : id ∈ out.map (·.locator.recordId) ∨ id = candidate.locator.recordId) :
    id ∈ (upsertArchiveCandidate out candidate).map (·.locator.recordId) := by
  induction out with
  | nil =>
    rcases h with h | rfl
    · cases h
    · exact List.mem_singleton_self _
  | cons found out ih =>
    rw [upsertArchiveCandidate]
    split
    · rename_i heq
      rw [List.map_cons]
      have hhead : (if found.backendFtsScore < candidate.backendFtsScore then candidate else found).locator.recordId =
          candidate.locator.recordId := by
        split
        · rfl
        · exact heq
      rw [hhead]
      rcases h with h | rfl
      · rw [List.map_cons, heq] at h
        exact h
      · exact List.mem_cons_self
    · rw [List.map_cons]
      rcases h with h | h
      · rcases List.mem_cons.mp h with rfl | h
        · exact List.mem_cons_self
        · exact List.mem_cons_of_mem _ (ih (.inl h))
      · exact List.mem_cons_of_mem _ (ih (.inr h))

theorem mem_takeRows (h : c ∈ rows.foldl (takeRow query) out) :
    c ∈ out ∨ c ∈ rows ∧ archiveCandidateMatchesQuery c query = true := by
  induction rows generalizing out with
  | nil => exact .inl h
  | cons row rows ih =>
    rcases ih h with h | ⟨hrow, hmatch⟩
    · rw [takeRow] at h
      split at h
      · rename_i hmatch
        rcases mem_upsertArchiveCandidate h with h | rfl
        · exact .inl h
        · exact .inr ⟨List.mem_cons_self, hmatch⟩
      · exact .inl h
    · exact .inr ⟨List.mem_cons_of_mem row hrow, hmatch⟩

theorem recordId_mem_takeRows {id : List Char} (h : id ∈ out.map (·.locator.recordId) ∨
      ∃ row ∈ rows, archiveCandidateMatchesQuery row query = true ∧ row.locator.recordId = id) :
    id ∈ (rows.foldl (takeRow query) out).map (·.locator.recordId) := by
  induction rows generalizing out with
  | nil =>
    rcases h with h | ⟨row, hrow, -⟩
    · exact h
    · cases hrow
  | cons row rows ih =>
    apply ih
    rw [takeRow]
    rcases h with h | ⟨row', hrow, hmatch, rfl⟩
    · left
      split
      · exact recordId_mem_upsertArchiveCandidate out row (.inl h)
      · exact h
    · rcases List.mem_cons.mp hrow with rfl | hrow
      · left
        rw [if_pos hmatch]
        exact recordId_mem_upsertArchiveCandidate out row' (.inr rfl)
      · exact .inr ⟨row', hrow, hmatch, rfl⟩

/-! What a search finds. -/

variable {R : Type} [LinearOrder R] (fts : FullTextSearch R)

/-- The rows that match the expression and pass the filters of the query. -/
def ArchiveIndex.wanted (index : ArchiveIndex) (expression : List Char) (query : ArchiveSearchQuery) : List ArchiveDocument :=
  (index.matches fts expression).filter fun d =>
    archiveCandidateMatchesQuery (mapArchiveSqliteCandidateRow query.preferredChatId 0 d) query

/-- The candidate of a row is among those that are returned, with some score. -/
def Returned (index : ArchiveIndex) (query : PreparedArchiveSearchQuery) (terms : List (List Char)) (d : ArchiveDocument) : Prop :=
  ∃ score, mapArchiveSqliteCandidateRow query.raw.preferredChatId score d ∈ queryArchiveCandidatesSqlite fts index query terms

/-- Where no more than 48 rows are wanted, they are all returned. -/
def FindsWanted (index : ArchiveIndex) (query : PreparedArchiveSearchQuery) (terms : List (List Char)) : Prop :=
  ∀ expression, archiveSqliteMatchExpression terms = some expression → (index.wanted fts expression query.raw).length ≤ 48 →
    ∀ d ∈ index.wanted fts expression query.raw, Returned fts index query terms d

/-- Each of them is one of the best 48 matches of the whole archive, or fewer than 64 rows of it are newer. -/
def WithinReach (index : ArchiveIndex) (query : PreparedArchiveSearchQuery) (terms : List (List Char)) : Prop :=
  ∀ expression, archiveSqliteMatchExpression terms = some expression → (index.wanted fts expression query.raw).length ≤ 48 →
    ∀ d ∈ index.wanted fts expression query.raw,
      (index.ranked fts expression).idxOf d < 48 ∨ index.documents.countP (fun e => d.recency < e.recency) < 64

variable {fts} {index : ArchiveIndex} {prepared : PreparedArchiveSearchQuery} {terms : List (List Char)}
  {expression : List Char} {d : ArchiveDocument}

theorem ArchiveIndex.mem_ranked_iff : d ∈ index.ranked fts expression ↔ d ∈ index.documents ∧ fts.isMatch expression d = true := by
  rw [ArchiveIndex.ranked, (fts.perm _ _ _).mem_iff, ArchiveIndex.matches, List.mem_filter]

theorem ArchiveIndex.eq_of_recordId {e : ArchiveDocument} (hd : d ∈ index.documents) (he : e ∈ index.documents)
    (h : d.recordId = e.recordId) : d = e :=
  List.inj_on_of_nodup_map index.recordIds hd he h

theorem ArchiveIndex.nodup_recency (index : ArchiveIndex) : (index.documents.map ArchiveDocument.recency).Nodup := by
  refine List.Nodup.of_map (fun key : Nat ×ₗ Nat => (ofLex key).2) ?_
  rw [List.map_map]
  exact index.rowids

section
variable (hweak : prepared.weakQuery = false)
include hweak

theorem mem_bestMatches_iff (hexpression : archiveSqliteMatchExpression terms = some expression) :
    candidate ∈ bestMatches fts index prepared terms ↔ ∃ d ∈ (index.ranked fts expression).take 48,
      mapArchiveSqliteCandidateRow prepared.raw.preferredChatId (fts.score (fts.bm25 index.documents expression d)) d =
        candidate := by
  rw [bestMatches, hweak, hexpression]
  exact List.mem_map

/-- What is returned was a row of one of the two lists, and passes the filters. -/
theorem row_of_mem_query (hexpression : archiveSqliteMatchExpression terms = some expression)
    (h : c ∈ queryArchiveCandidatesSqlite fts index prepared terms) :
    ∃ score, ∃ d ∈ index.documents, mapArchiveSqliteCandidateRow prepared.raw.preferredChatId score d = c ∧
      (d ∈ (index.ranked fts expression).take 48 ∨ d ∈ (sortDescending ArchiveDocument.recency index.documents).take 64) := by
  rcases mem_takeRows h with h | ⟨hrow, -⟩
  · rcases mem_takeRows h with h | ⟨hrow, -⟩
    · cases h
    · obtain ⟨d, hd, hc⟩ := (mem_bestMatches_iff hweak hexpression).mp hrow
      exact ⟨_, d, (ArchiveIndex.mem_ranked_iff.mp (List.mem_of_mem_take hd)).1, hc, .inl hd⟩
  · obtain ⟨d, hd, hc⟩ := List.mem_map.mp hrow
    exact ⟨0, d, mem_sortDescending.mp (List.mem_of_mem_take hd), hc, .inr hd⟩

theorem returned_iff (hexpression : archiveSqliteMatchExpression terms = some expression)
    (hd : d ∈ index.wanted fts expression prepared.raw) :
    Returned fts index prepared terms d ↔
      (index.ranked fts expression).idxOf d < 48 ∨ index.documents.countP (fun e => d.recency < e.recency) < 64 := by
  obtain ⟨hmatches, hfilters⟩ := List.mem_filter.mp hd
  obtain ⟨hdocument, hmatch⟩ := List.mem_filter.mp hmatches
  rw [← List.mem_take_iff_idxOf_lt (ArchiveIndex.mem_ranked_iff.mpr ⟨hdocument, hmatch⟩),
    ← mem_take_sortDescending_iff index.nodup_recency hdocument 64]
  constructor
  · rintro ⟨score, hmem⟩
    obtain ⟨score', e, he, hrow, hreach⟩ := row_of_mem_query hweak hexpression hmem
    have hlocator : e.recordId = d.recordId := congrArg (·.locator.recordId) hrow
    obtain rfl := index.eq_of_recordId he hdocument hlocator
    exact hreach
  · intro hreach
    have hid : d.recordId ∈ (queryArchiveCandidatesSqlite fts index prepared terms).map (·.locator.recordId) := by
      apply recordId_mem_takeRows
      rcases hreach with hbest | hnewest
      · left
        apply recordId_mem_takeRows
        exact .inr ⟨_, (mem_bestMatches_iff hweak hexpression).mpr ⟨d, hbest, rfl⟩, hfilters, rfl⟩
      · exact .inr ⟨_, List.mem_map.mpr ⟨d, hnewest, rfl⟩, hfilters, rfl⟩
    obtain ⟨c, hc, hcid⟩ := List.mem_map.mp hid
    obtain ⟨score, e, he, rfl, -⟩ := row_of_mem_query hweak hexpression hc
    obtain rfl := index.eq_of_recordId he hdocument hcid
    exact ⟨score, hc⟩

end

theorem matches_of_mem_query (h : c ∈ queryArchiveCandidatesSqlite fts index prepared terms) :
    archiveCandidateMatchesQuery c prepared.raw = true := by
  rcases mem_takeRows h with h | ⟨-, hmatch⟩
  · rcases mem_takeRows h with h | ⟨-, hmatch⟩
    · cases h
    · exact hmatch
  · exact hmatch

/-- The filters are asked of what the limits have left: the wanted rows are found exactly when none of them is beyond both
limits of the whole archive. -/
theorem findsWanted_iff (fts : FullTextSearch R) (index : ArchiveIndex) (raw : ArchiveSearchQuery) (terms : List (List Char))
    (hweak : (PreparedArchiveSearchQuery.new raw terms).weakQuery = false) :
    (FindsWanted fts index (.new raw terms) terms ↔ WithinReach fts index (.new raw terms) terms) ∧
      ∀ c ∈ queryArchiveCandidatesSqlite fts index (.new raw terms) terms, archiveCandidateMatchesQuery c raw = true := by
  refine ⟨?_, fun c hc => matches_of_mem_query hc⟩
  constructor
  · intro h expression hexpression hfew d hd
    exact (returned_iff hweak hexpression hd).mp (h expression hexpression hfew d hd)
  · intro h expression hexpression hfew d hd
    exact (returned_iff hweak hexpression hd).mpr (h expression hexpression hfew d hd)

def chatRank (chatId : List Char) (d : ArchiveDocument) : Int := if d.locator.chatId = some chatId then 1 else 0

/-- A search that finds every row and ranks those of one chat behind all the others. -/
def lastChat (chatId : List Char) : FullTextSearch Int :=
  { isMatch := fun _ _ => true
    bm25 := fun _ _ => chatRank chatId
    orderByRank := fun _ _ => sortDescending fun d => -chatRank chatId d
    score := fun _ => 0
    perm := fun _ _ rows => perm_sortDescending _ rows
    ordered := by
      intro _ _ rows
      refine (pairwise_sortDescending (fun d => -chatRank chatId d) rows).imp ?_
      intro a b h
      exact Int.neg_le_neg_iff.mp h }

def chatRow (chatId : List Char) (n : Nat) : ArchiveDocument :=
  ⟨n, ⟨.transcript, some chatId, some (decimal n), some 0, none, none⟩, [], ['x'], [], none⟩

theorem recordId_chatRow (chatId : List Char) (n : Nat) : (chatRow chatId n).recordId =
    ArchiveRecordSource.transcript.label ++ '|' :: (chatId ++ '|' :: ("msg".toList ++ '|' :: decimal n)) := rfl

theorem recordId_chatRow_inj {chatId : List Char} {m n : Nat} (h : (chatRow chatId m).recordId = (chatRow chatId n).recordId) :
    m = n := by
  have hdecimal : decimal m = decimal n := by
    simpa only [recordId_chatRow, List.append_cancel_left_eq, List.cons_inj_right] using h
  rw [← Nat.ofDigitChars_toDigits (n := m) (by decide) (by decide : 10 ≤ 10), ← decimal, hdecimal, decimal,
    Nat.ofDigitChars_toDigits (by decide) (by decide)]

/-- One row of the chat `a`, and then 64 rows of the chat `b`. -/
def crowded : ArchiveIndex :=
  { documents := chatRow ['a'] 0 :: (List.range 64).map fun n => chatRow ['b'] (n + 1)
    recordIds := by
      rw [List.map_cons, List.map_map, List.nodup_cons, List.mem_map]
      refine ⟨?_, List.nodup_range.map_on fun m _ n _ h => Nat.succ.inj (recordId_chatRow_inj h)⟩
      rintro ⟨n, -, h⟩
      rw [Function.comp, recordId_chatRow, recordId_chatRow, List.append_cancel_left_eq] at h
      exact absurd h (by simp)
    rowids := by
      rw [List.map_cons, List.map_map, List.nodup_cons, List.mem_map]
      refine ⟨?_, List.nodup_range.map_on fun m _ n _ h => Nat.succ.inj h⟩
      rintro ⟨n, -, h⟩
      cases h }

def inChat (chatId : List Char) : ArchiveSearchQuery := ⟨['x'], none, some chatId, [], 8⟩

theorem crowded_found :
    (FindsWanted (lastChat ['b']) crowded (.new (inChat ['a']) [['x']]) [['x']] ↔
      WithinReach (lastChat ['b']) crowded (.new (inChat ['a']) [['x']]) [['x']]) ∧
    ∀ c ∈ queryArchiveCandidatesSqlite (lastChat ['b']) crowded (.new (inChat ['a']) [['x']]) [['x']],
      archiveCandidateMatchesQuery c (inChat ['a']) = true :=
  findsWanted_iff (lastChat ['b']) crowded (inChat ['a']) [['x']] (by decide)

/-- The one row that is wanted is the 65th of both lists. -/
theorem crowded_missed :
    ¬ ∀ (R : Type) (_ : LinearOrder R) (fts : FullTextSearch R) (index : ArchiveIndex) (raw : ArchiveSearchQuery)
      (terms : List (List Char)), (PreparedArchiveSearchQuery.new raw terms).weakQuery = false →
        FindsWanted fts index (.new raw terms) terms := by
  intro h
  have hfinds := h Int inferInstance (lastChat ['a']) crowded (inChat ['a']) [['x']] (by decide)
  have hexpression : archiveSqliteMatchExpression [['x']] = some ['"', 'x', '"'] := by decide
  have hwanted : crowded.wanted (lastChat ['a']) ['"', 'x', '"'] (inChat ['a']) = [chatRow ['a'] 0] := by decide
  have hmem : chatRow ['a'] 0 ∈ crowded.wanted (lastChat ['a']) ['"', 'x', '"'] (inChat ['a']) := by
    rw [hwanted]
    exact List.mem_singleton_self _
  have hreturned := hfinds _ hexpression (by simp [PreparedArchiveSearchQuery.new, hwanted]) (chatRow ['a'] 0) hmem
  rcases (returned_iff (by decide) hexpression hmem).mp hreturned with hbest | hnewest
  · have hplace : (crowded.ranked (lastChat ['a']) ['"', 'x', '"']).idxOf (chatRow ['a'] 0) = 64 := by decide
    omega
  · have hnewer : crowded.documents.countP (fun e => (chatRow ['a'] 0).recency < e.recency) = 64 := by decide
    omega

end Beetle.Memory.Archive
