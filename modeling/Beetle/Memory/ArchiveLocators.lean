import Beetle.Memory.Archive
import Beetle.Platform.SessionLines

/-! Opening a record of the archive by its record id. -/
namespace Beetle.Memory.Archive
open Beetle.Lib Beetle.Platform.Storage

/-- What `session_path` asks of the characters of a chat id. -/
def AcceptedChatId (chatId : List Char) : Prop := chatId ≠ [] ∧ ∀ c ∈ chatId, isChatIdChar c = true

namespace AcceptedChatId
variable {chatId : List Char}

theorem bar (h : AcceptedChatId chatId) : '|' ∉ chatId := fun hbar => absurd (h.2 _ hbar) (by decide)

theorem trim_eq (h : AcceptedChatId chatId) : trim chatId = chatId :=
  trimEnds_eq_self (fun c hc => isWhitespace_of_isChatIdChar (h.2 c (List.mem_of_head? hc)))
    (fun c hc => isWhitespace_of_isChatIdChar (h.2 c (List.mem_of_getLast? hc)))

end AcceptedChatId

/-- A text that no separator cuts and that has no white space at its ends. -/
structure Plain (text : List Char) : Prop where
  bar : '|' ∉ text
  trimmed : trim text = text

/-- What is read again of the last part of a record id. -/
def readBack (text : List Char) : List Char := trim (text.takeWhile (· ≠ '|'))

theorem readBack_of_plain {text : List Char} (h : Plain text) : readBack text = text := by
  have htake : text.takeWhile (· ≠ '|') = text := by
    rw [List.takeWhile_eq_self_iff]
    intro c hc
    simpa using fun heq : c = '|' => h.bar (heq ▸ hc)
  rw [readBack, htake, h.trimmed]

theorem plain_readBack (text : List Char) : Plain (readBack text) := by
  refine ⟨fun hbar => ?_, ?_⟩
  · have hmem : '|' ∈ text.takeWhile (· ≠ '|') := (trimEnds_part isWhitespace _).subset hbar
    simpa using List.mem_takeWhile_imp hmem
  · exact trimEnds_eq_self (trimEnds_head isWhitespace _) (trimEnds_last isWhitespace _)

theorem readBack_eq_self_iff {text : List Char} : readBack text = text ↔ Plain text :=
  ⟨fun h => h ▸ plain_readBack text, readBack_of_plain⟩

theorem splitOn_head (text : List Char) : ∃ more, text.splitOn '|' = text.takeWhile (· ≠ '|') :: more := by
  by_cases hbar : '|' ∈ text
  · obtain ⟨front, back, rfl, hfront⟩ := List.eq_append_cons_of_mem hbar
    refine ⟨back.splitOn '|', ?_⟩
    rw [List.splitOn_append_cons_self_of_not_mem hfront]
    congr 1
    rw [List.takeWhile_append_of_pos fun c hc => by simpa using fun heq : c = '|' => hfront (heq ▸ hc)]
    simp
  · refine ⟨[], ?_⟩
    rw [List.splitOn_eq_singleton hbar]
    congr 1
    exact (List.takeWhile_eq_self_iff.mpr fun c hc => by simpa using fun heq : c = '|' => hbar (heq ▸ hc)).symm

theorem bar_notMem_label (source : ArchiveRecordSource) : '|' ∉ source.label := by
  cases source <;> decide

/-- The locators of the three kinds of records. -/
inductive Names : ArchiveRecordLocator → List Char → Prop where
  | transcript {chatId : List Char} (h : AcceptedChatId chatId) (messageId : List Char) (index : Nat) :
      Names ⟨.transcript, some chatId, some messageId, some index, none, none⟩ messageId
  | dailyNote (name : List Char) : Names ⟨.dailyNote, none, none, none, some name, none⟩ name
  | turnLog {chatId : List Char} (h : AcceptedChatId chatId) (reqId : List Char) :
      Names ⟨.turnLog, some chatId, none, none, none, some reqId⟩ reqId

/-- The locator that a record id is read as: its identifier is cut, and a transcript has no index. -/
def reread (l : ArchiveRecordLocator) : ArchiveRecordLocator :=
  { l with messageId := l.messageId.map readBack, messageIndex := none, noteName := l.noteName.map readBack,
           reqId := l.reqId.map readBack }

theorem parseRecordId_of_label (source : ArchiveRecordSource) (text : List Char) :
    ArchiveRecordLocator.parseRecordId (source.label ++ '|' :: text) =
      ArchiveRecordLocator.parseParts source (text.splitOn '|') := by
  rw [ArchiveRecordLocator.parseRecordId, List.splitOn_append_cons_self_of_not_mem (bar_notMem_label source)]
  simp only [ArchiveRecordSource.ofLabel_label, Option.bind_some]

variable {l : ArchiveRecordLocator} {chatId : List Char} {index : Nat} {messages : List SessionMessageRecord}

theorem parseRecordId_recordId {identifier : List Char} (h : Names l identifier) :
    ArchiveRecordLocator.parseRecordId l.recordId = some (reread l) := by
  obtain ⟨more, hmore⟩ := splitOn_head identifier
  cases h with
  | @transcript chatId haccepted _ index =>
    have hmsg : trim "msg".toList = "msg".toList := by decide
    simp only [ArchiveRecordLocator.recordId, Option.getD_some]
    rw [parseRecordId_of_label, List.splitOn_append_cons_self_of_not_mem haccepted.bar,
      List.splitOn_append_cons_self_of_not_mem (by decide), hmore, ArchiveRecordLocator.parseParts, if_pos hmsg,
      haccepted.trim_eq]
    rfl
  | dailyNote _ =>
    simp only [ArchiveRecordLocator.recordId, Option.getD_some]
    rw [parseRecordId_of_label, hmore]
    rfl
  | @turnLog chatId haccepted _ =>
    simp only [ArchiveRecordLocator.recordId, Option.getD_some]
    rw [parseRecordId_of_label, List.splitOn_append_cons_self_of_not_mem haccepted.bar, hmore,
      ArchiveRecordLocator.parseParts, haccepted.trim_eq]
    rfl

theorem append_bar_inj {a b x y : List Char} (ha : '|' ∉ a) (hb : '|' ∉ b) (h : a ++ '|' :: x = b ++ '|' :: y) :
    a = b ∧ x = y := by
  have hsplit := congrArg (List.splitOn '|') h
  rw [List.splitOn_append_cons_self_of_not_mem ha, List.splitOn_append_cons_self_of_not_mem hb] at hsplit
  obtain rfl := (List.cons_eq_cons.mp hsplit).1
  simpa using h

/-- A record id says which kind a record is, which chat it is of, and its identifier; it leaves the index out. -/
theorem eq_of_recordId {l l' : ArchiveRecordLocator} {identifier identifier' : List Char} (h : Names l identifier)
    (h' : Names l' identifier') (heq : l.recordId = l'.recordId) :
    l'.source = l.source ∧ l'.chatId = l.chatId ∧ identifier' = identifier := by
  cases h with
  | @transcript chatId haccepted _ index =>
    cases h' with
    | @transcript chatId' haccepted' _ index' =>
      obtain ⟨-, htail⟩ := append_bar_inj (bar_notMem_label .transcript) (bar_notMem_label .transcript) heq
      obtain ⟨rfl, hmsg⟩ := append_bar_inj haccepted.bar haccepted'.bar htail
      obtain ⟨-, rfl⟩ := append_bar_inj (by decide) (by decide) hmsg
      exact ⟨rfl, rfl, rfl⟩
    | dailyNote _ =>
      exact absurd (append_bar_inj (bar_notMem_label .transcript) (bar_notMem_label .dailyNote) heq).1 (by decide)
    | turnLog _ _ =>
      exact absurd (append_bar_inj (bar_notMem_label .transcript) (bar_notMem_label .turnLog) heq).1 (by decide)
  | dailyNote _ =>
    cases h' with
    | transcript _ _ _ =>
      exact absurd (append_bar_inj (bar_notMem_label .dailyNote) (bar_notMem_label .transcript) heq).1 (by decide)
    | dailyNote _ =>
      obtain ⟨-, rfl⟩ := append_bar_inj (bar_notMem_label .dailyNote) (bar_notMem_label .dailyNote) heq
      exact ⟨rfl, rfl, rfl⟩
    | turnLog _ _ =>
      exact absurd (append_bar_inj (bar_notMem_label .dailyNote) (bar_notMem_label .turnLog) heq).1 (by decide)
  | @turnLog chatId haccepted _ =>
    cases h' with
    | transcript _ _ _ =>
      exact absurd (append_bar_inj (bar_notMem_label .turnLog) (bar_notMem_label .transcript) heq).1 (by decide)
    | dailyNote _ =>
      exact absurd (append_bar_inj (bar_notMem_label .turnLog) (bar_notMem_label .dailyNote) heq).1 (by decide)
    | @turnLog chatId' haccepted' _ =>
      obtain ⟨-, htail⟩ := append_bar_inj (bar_notMem_label .turnLog) (bar_notMem_label .turnLog) heq
      obtain ⟨rfl, rfl⟩ := append_bar_inj haccepted.bar haccepted'.bar htail
      exact ⟨rfl, rfl, rfl⟩

/-- The part of a record id that the stores have made. -/
def ArchiveRecordLocator.identifier (l : ArchiveRecordLocator) : List Char :=
  match l.source with
  | .transcript => l.messageId.getD []
  | .dailyNote => l.noteName.getD []
  | .turnLog => l.reqId.getD []

theorem Names.index_eq_none {identifier : List Char} (h : Names l identifier)
    (hsource : l.source ≠ .transcript) : l.messageIndex = none := by
  cases h with
  | transcript _ _ _ => exact absurd rfl hsource
  | dailyNote _ => rfl
  | turnLog _ _ => rfl

/-- A locator is its kind, its chat, its identifier and its index. -/
theorem Names.ext {l l' : ArchiveRecordLocator} {identifier identifier' : List Char} (h : Names l identifier)
    (h' : Names l' identifier') (hsource : l'.source = l.source) (hchat : l'.chatId = l.chatId)
    (hidentifier : identifier' = identifier) (hindex : l.messageIndex = l'.messageIndex) : l = l' := by
  cases h <;> cases h' <;> simp_all

theorem citation_reread_iff {identifier : List Char} (h : Names l identifier) :
    (reread l).citation = l.citation ↔ Plain identifier := by
  rw [← readBack_eq_self_iff]
  cases h with
  | transcript _ _ _ =>
    simp only [reread, ArchiveRecordLocator.citation, Option.map_some, Option.getD_some, List.append_cancel_left_eq]
  | dailyNote _ =>
    simp only [reread, ArchiveRecordLocator.citation, Option.map_some, Option.getD_some, List.append_cancel_left_eq]
  | turnLog _ _ =>
    simp only [reread, ArchiveRecordLocator.citation, Option.map_some, Option.getD_some, List.append_cancel_left_eq]

/-! The records that are live. -/

theorem mem_gather {α β : Type} {f : α → Except Error (List β)} {l : List α} {bs : List β} (h : gather f l = .ok bs) {b : β} :
    b ∈ bs ↔ ∃ a ∈ l, ∃ cs, f a = .ok cs ∧ b ∈ cs := by
  induction l generalizing bs with
  | nil =>
    cases h
    simp
  | cons a l ih =>
    simp only [gather] at h
    cases hfirst : f a with
    | error error => rw [hfirst] at h; cases h
    | ok cs =>
      cases hrest : gather f l with
      | error error => rw [hfirst, hrest] at h; cases h
      | ok rest =>
        rw [hfirst, hrest] at h
        cases h
        rw [List.mem_append, ih hrest]
        constructor
        · rintro (hb | ⟨a', ha', hb⟩)
          · exact ⟨a, List.mem_cons_self, cs, hfirst, hb⟩
          · exact ⟨a', List.mem_cons_of_mem a ha', hb⟩
        · rintro ⟨a', ha', cs', hcs', hb⟩
          rcases List.mem_cons.mp ha' with rfl | ha'
          · rw [hfirst] at hcs'
            cases hcs'
            exact .inl hb
          · exact .inr ⟨a', ha', cs', hcs', hb⟩

theorem mapError_eq_ok {α : Type} {x : Except Error α} {f : Error → Error} {a : α} (h : x.mapError f = .ok a) : x = .ok a := by
  cases x with
  | error error => cases h
  | ok b => exact h

/-- The query with which `maintain_archive_search_backend` collects every record. -/
def allRecords : ArchiveSearchQuery := ⟨[], none, none, [], 1⟩

variable {D : Type} {texts : ArchiveTexts D} {corpus : Corpus D} {live : List ArchiveSearchCandidate}
  {r : ArchiveSearchCandidate}

/-- A message of a chat that is listed. -/
structure ListedMessage (corpus : Corpus D) (chatId : List Char) (index : Nat) (message : SessionMessageRecord) : Prop where
  listed : ∃ chatIds, corpus.listChatIds = .ok chatIds ∧ chatId ∈ chatIds
  found : ∃ messages, corpus.loadRecentRecords chatId = .ok messages ∧ messages[index]? = some message

/-- Where a live record comes from. -/
inductive Recorded (texts : ArchiveTexts D) (corpus : Corpus D) : ArchiveSearchCandidate → Prop where
  | transcript {chatId : List Char} {index : Nat} {message : SessionMessageRecord} {r : ArchiveSearchCandidate}
      (hmessage : ListedMessage corpus chatId index message)
      (hr : transcriptCandidate texts none chatId index message = some r) : Recorded texts corpus r
  | dailyNote {name content : List Char} {r : ArchiveSearchCandidate} (hcontent : corpus.getDailyNote name = .ok content)
      (hr : dailyNoteCandidate name content = some r) : Recorded texts corpus r
  | turnLog {chatIds : List (List Char)} {chatId : List Char} {ledger : TurnLedger D} {r : ArchiveSearchCandidate}
      (hchatIds : corpus.listChatIds = .ok chatIds) (hchat : chatId ∈ chatIds)
      (hledger : corpus.turnLedger chatId = .ok (some ledger))
      (hr : turnLogCandidate texts none chatId ledger = some r) : Recorded texts corpus r

section
variable (h : collectLiveArchiveCandidates texts corpus allRecords = .ok live)
include h

theorem collect_allRecords :
    ∃ chatIds names transcripts dailyNotes turnLogs, corpus.listChatIds = .ok chatIds ∧ corpus.listDailyNoteNames = .ok names ∧
      gather (transcriptCandidates texts corpus none) chatIds = .ok transcripts ∧
      gather (dailyNoteCandidates corpus) names = .ok dailyNotes ∧
      gather (turnLogCandidates texts corpus none) chatIds = .ok turnLogs ∧ live = transcripts ++ dailyNotes ++ turnLogs := by
  obtain ⟨chatIds, transcripts, dailyNotes, turnLogs, hchatIds, htranscripts, hdailyNotes, hturnLogs, rfl⟩ := collect_eq_ok h
  simp only [allRecords, ArchiveSearchQuery.wants, List.isEmpty_nil, Bool.true_or, whenWanted, if_true, collectArchiveChatIds,
    Option.map_none, Option.filter_none] at hchatIds htranscripts hdailyNotes hturnLogs
  obtain ⟨listed, hlisted, hchatIds⟩ := except_bind_ok hchatIds
  obtain ⟨names, hnames, hdailyNotes⟩ := except_bind_ok hdailyNotes
  cases hchatIds
  exact ⟨chatIds, names, transcripts, dailyNotes, turnLogs, mapError_eq_ok hlisted, mapError_eq_ok hnames, htranscripts,
    hdailyNotes, hturnLogs, rfl⟩

theorem recorded_of_mem (hr : r ∈ live) : Recorded texts corpus r := by
  obtain ⟨chatIds, names, transcripts, dailyNotes, turnLogs, hchatIds, -, htranscripts, hdailyNotes, hturnLogs, rfl⟩ :=
    collect_allRecords h
  rcases List.mem_append.mp hr with hr | hr
  · rcases List.mem_append.mp hr with hr | hr
    · obtain ⟨chatId, hchat, rs, hrs, hr⟩ := (mem_gather htranscripts).mp hr
      obtain ⟨messages, hmessages, hrs⟩ := except_bind_ok hrs
      cases hrs
      obtain ⟨⟨message, index⟩, hmem, hr⟩ := List.mem_filterMap.mp hr
      exact .transcript ⟨⟨chatIds, hchatIds, hchat⟩, messages, mapError_eq_ok hmessages, List.mem_zipIdx_iff_getElem?.mp hmem⟩ hr
    · obtain ⟨name, -, rs, hrs, hr⟩ := (mem_gather hdailyNotes).mp hr
      obtain ⟨content, hcontent, hrs⟩ := except_bind_ok hrs
      cases hrs
      exact .dailyNote (mapError_eq_ok hcontent) (Option.mem_toList.mp hr)
  · obtain ⟨chatId, hchat, rs, hrs, hr⟩ := (mem_gather hturnLogs).mp hr
    obtain ⟨ledger, hledger, hrs⟩ := except_bind_ok hrs
    cases hrs
    obtain ⟨ledger, rfl, hcandidate⟩ := Option.bind_eq_some_iff.mp (Option.mem_toList.mp hr)
    exact .turnLog hchatIds hchat (mapError_eq_ok hledger) hcandidate

/-- Every message that is not blank has its record. -/
theorem mem_of_listedMessage {message : SessionMessageRecord} (hmessage : ListedMessage corpus chatId index message)
    (hr : transcriptCandidate texts none chatId index message = some r) : r ∈ live := by
  obtain ⟨chatIds, names, transcripts, dailyNotes, turnLogs, hchatIds, -, htranscripts, -, -, rfl⟩ := collect_allRecords h
  obtain ⟨⟨listed, hlisted, hchat⟩, messages, hmessages, hfound⟩ := hmessage
  rw [hchatIds] at hlisted
  cases hlisted
  have hcandidates : ∃ rs, transcriptCandidates texts corpus none chatId = .ok rs ∧ r ∈ rs := by
    simp only [transcriptCandidates, hmessages, Except.mapError]
    exact ⟨_, rfl, List.mem_filterMap.mpr ⟨(message, index), List.mem_zipIdx_iff_getElem?.mpr hfound, hr⟩⟩
  obtain ⟨rs, hrs, hr⟩ := hcandidates
  exact List.mem_append_left _ (List.mem_append_left _ ((mem_gather htranscripts).mpr ⟨chatId, hchat, rs, hrs, hr⟩))

end

theorem transcriptCandidate_eq_some {message : SessionMessageRecord}
    (hr : transcriptCandidate texts none chatId index message = some r) :
    trim message.content.toList ≠ [] ∧ r.content = trim message.content.toList ∧
      r.title = texts.toUppercase message.role.toList ++ (" in ".toList ++ chatId) ∧
      r.locator = ⟨.transcript, some chatId, some message.messageId.toList, some index, none, none⟩ := by
  dsimp only [transcriptCandidate] at hr
  split at hr
  · cases hr
  · rename_i hcontent
    cases hr
    exact ⟨hcontent, rfl, rfl, rfl⟩

theorem exists_transcriptCandidate (texts : ArchiveTexts D) (chatId : List Char) (index : Nat) {message : SessionMessageRecord}
    (h : trim message.content.toList ≠ []) : ∃ r, transcriptCandidate texts none chatId index message = some r :=
  ⟨_, if_neg h⟩

theorem dailyNoteCandidate_eq_some {name content : List Char} (hr : dailyNoteCandidate name content = some r) :
    trim content ≠ [] ∧ r.content = trim content ∧ r.title = name ∧ r.locator = ⟨.dailyNote, none, none, none, some name, none⟩ := by
  dsimp only [dailyNoteCandidate] at hr
  split at hr
  · cases hr
  · rename_i hcontent
    cases hr
    exact ⟨hcontent, rfl, rfl, rfl⟩

theorem turnLogCandidate_eq_some {ledger : TurnLedger D} (hr : turnLogCandidate texts none chatId ledger = some r) :
    texts.renderTurnLogContent ledger ≠ [] ∧ r.content = texts.renderTurnLogContent ledger ∧
      r.title = turnLogStatusLabel ledger.status ++ (" turn in ".toList ++ chatId) ∧
      r.locator = ⟨.turnLog, some chatId, none, none, none, some ledger.reqId.toList⟩ := by
  dsimp only [turnLogCandidate] at hr
  split at hr
  · cases hr
  · rename_i hcontent
    cases hr
    exact ⟨hcontent, rfl, rfl, rfl⟩

/-- Every chat that is listed has an id that the session store accepts. -/
def AcceptedChats (corpus : Corpus D) : Prop :=
  ∀ chatIds, corpus.listChatIds = .ok chatIds → ∀ chatId ∈ chatIds, AcceptedChatId chatId

theorem Recorded.names (haccepted : AcceptedChats corpus) (h : Recorded texts corpus r) : Names r.locator r.locator.identifier := by
  cases h with
  | transcript hmessage hr =>
    obtain ⟨chatIds, hchatIds, hchat⟩ := hmessage.listed
    rw [(transcriptCandidate_eq_some hr).2.2.2]
    exact .transcript (haccepted chatIds hchatIds _ hchat) _ _
  | dailyNote _ hr =>
    rw [(dailyNoteCandidate_eq_some hr).2.2.2]
    exact .dailyNote _
  | turnLog hchatIds hchat _ hr =>
    rw [(turnLogCandidate_eq_some hr).2.2.2]
    exact .turnLog (haccepted _ hchatIds _ hchat) _

theorem Recorded.message (h : Recorded texts corpus r) (hsource : r.locator.source = .transcript) :
    ∃ chatId index message, ListedMessage corpus chatId index message ∧
      transcriptCandidate texts none chatId index message = some r := by
  cases h with
  | transcript hmessage hr => exact ⟨_, _, _, hmessage, hr⟩
  | dailyNote _ hr => rw [(dailyNoteCandidate_eq_some hr).2.2.2] at hsource; cases hsource
  | turnLog _ _ _ hr => rw [(turnLogCandidate_eq_some hr).2.2.2] at hsource; cases hsource

/-! Opening. -/

/-- The record id of a hit opens the record that was hit, with as much of its content as is asked for. -/
def Opens (texts : ArchiveTexts D) (corpus : Corpus D) (r : ArchiveSearchCandidate) : Prop :=
  ∀ terms maxContentChars, ∃ locator record, ArchiveRecordLocator.parseRecordId r.locator.recordId = some locator ∧
    getArchiveRecord texts corpus locator terms maxContentChars = .ok (some record) ∧
    record.citation = r.locator.citation ∧ record.source = r.source ∧ record.title = r.title ∧
    record.content = r.content.take (contentLimit maxContentChars)

/-- Two records of one record id have one locator. -/
def RecordIdsTell (live : List ArchiveSearchCandidate) : Prop :=
  ∀ r ∈ live, ∀ r' ∈ live, r.locator.recordId = r'.locator.recordId → r.locator = r'.locator

/-- In each chat a message that has the id of an earlier one is blank. -/
def MessageIdsTell (corpus : Corpus D) : Prop :=
  ∀ chatIds, corpus.listChatIds = .ok chatIds → ∀ chatId ∈ chatIds, ∀ messages, corpus.loadRecentRecords chatId = .ok messages →
    messages.Pairwise fun earlier later => earlier.messageId = later.messageId → trim later.content.toList = []

theorem getArchiveRecord_transcript {locator : ArchiveRecordLocator} {chatId messageId : List Char}
    (hsource : locator.source = .transcript) (hchat : locator.chatId = some chatId)
    (hid : locator.messageId = some messageId) (hmessages : corpus.loadRecentRecords chatId = .ok messages)
    (terms : List (List Char)) (maxContentChars : Nat) :
    getArchiveRecord texts corpus locator terms maxContentChars =
      match messages.find? fun message => message.messageId.toList = messageId with
      | none => .ok none
      | some message =>
        if trim message.content.toList = [] then .ok none
        else .ok (some (buildArchiveRecord texts locator (texts.toUppercase message.role.toList ++ (" in ".toList ++ chatId))
          (trim message.content.toList) ["recent transcript".toList] none terms (contentLimit maxContentChars))) := by
  simp only [getArchiveRecord, hsource, hchat, hmessages, findMessage, hid]
  rfl

theorem citation_of_getArchiveRecord {locator : ArchiveRecordLocator} {terms : List (List Char)} {maxContentChars : Nat}
    {record : ArchiveRecord} (h : getArchiveRecord texts corpus locator terms maxContentChars = .ok (some record)) :
    record.citation = locator.citation := by
  unfold getArchiveRecord at h
  split at h
  · split at h
    · cases h
    · obtain ⟨messages, -, h⟩ := except_bind_ok h
      split at h
      · cases h
      · dsimp only at h
        split at h
        · cases h
        · cases h
          rfl
  · split at h
    · cases h
    · obtain ⟨content, -, h⟩ := except_bind_ok h
      dsimp only at h
      split at h
      · cases h
      · cases h
        rfl
  · split at h
    · cases h
    · obtain ⟨ledger, -, h⟩ := except_bind_ok h
      split at h
      · cases h
      · split at h
        · cases h
        · dsimp only at h
          split at h
          · cases h
          · cases h
            rfl

theorem plain_of_opens {identifier : List Char} (hnames : Names r.locator identifier) (h : Opens texts corpus r) :
    Plain identifier := by
  obtain ⟨locator, record, hparse, hget, hcitation, -⟩ := h [] 0
  rw [parseRecordId_recordId hnames] at hparse
  cases hparse
  rw [citation_of_getArchiveRecord hget] at hcitation
  exact (citation_reread_iff hnames).mp hcitation

theorem opens_of_build {identifier : List Char} (hnames : Names r.locator identifier) (hplain : Plain identifier)
    (hget : ∀ terms maxContentChars, ∃ cues observedAt,
      getArchiveRecord texts corpus (reread r.locator) terms maxContentChars =
        .ok (some (buildArchiveRecord texts (reread r.locator) r.title r.content cues observedAt terms
          (contentLimit maxContentChars)))) : Opens texts corpus r := by
  intro terms maxContentChars
  obtain ⟨cues, observedAt, hget⟩ := hget terms maxContentChars
  exact ⟨reread r.locator, _, parseRecordId_recordId hnames, hget, (citation_reread_iff hnames).mpr hplain, rfl, rfl, rfl⟩

theorem opens_dailyNote {name content : List Char} (hcontent : corpus.getDailyNote name = .ok content)
    (hr : dailyNoteCandidate name content = some r) (hplain : Plain name) : Opens texts corpus r := by
  obtain ⟨hne, hcandidate, htitle, hlocator⟩ := dailyNoteCandidate_eq_some hr
  have hreread : reread r.locator = ⟨.dailyNote, none, none, none, some name, none⟩ := by
    rw [hlocator, reread]
    simp only [Option.map_none, Option.map_some, readBack_of_plain hplain]
  refine opens_of_build (hlocator ▸ Names.dailyNote name) hplain fun terms maxContentChars =>
    ⟨["daily archive context".toList], parseDailyNoteObservedAt name, ?_⟩
  rw [hreread, htitle, hcandidate]
  simp only [getArchiveRecord, hcontent]
  exact if_neg hne

section
variable (haccepted : AcceptedChatId chatId)
include haccepted

theorem opens_turnLog {ledger : TurnLedger D}
    (hledger : corpus.turnLedger chatId = .ok (some ledger)) (hr : turnLogCandidate texts none chatId ledger = some r)
    (hplain : Plain ledger.reqId.toList) : Opens texts corpus r := by
  obtain ⟨hne, hcandidate, htitle, hlocator⟩ := turnLogCandidate_eq_some hr
  have hreread : reread r.locator = ⟨.turnLog, some chatId, none, none, none, some ledger.reqId.toList⟩ := by
    rw [hlocator, reread]
    simp only [Option.map_none, Option.map_some, readBack_of_plain hplain]
  have hledgers : namesLedger (some ledger.reqId.toList) ledger = true := by
    simp [namesLedger, hplain.trimmed]
  refine opens_of_build (hlocator ▸ Names.turnLog haccepted ledger.reqId.toList) hplain fun terms maxContentChars =>
    ⟨["execution log".toList], turnLogObservedAt ledger, ?_⟩
  rw [hreread, htitle, hcandidate]
  simp only [getArchiveRecord, hledger]
  change (if (!namesLedger (some ledger.reqId.toList) ledger) = true then _ else _) = _
  rw [hledgers]
  exact if_neg hne

/-- The message that is opened is the first one with its id. -/
theorem opens_transcript {message : SessionMessageRecord} (hmessages : corpus.loadRecentRecords chatId = .ok messages)
    (hr : transcriptCandidate texts none chatId index message = some r) (hplain : Plain message.messageId.toList)
    (hfirst : messages.find? (fun m => m.messageId.toList = message.messageId.toList) = some message) : Opens texts corpus r := by
  obtain ⟨hne, hcandidate, htitle, hlocator⟩ := transcriptCandidate_eq_some hr
  have hreread : reread r.locator = ⟨.transcript, some chatId, some message.messageId.toList, none, none, none⟩ := by
    rw [hlocator, reread]
    simp only [Option.map_none, Option.map_some, readBack_of_plain hplain]
  refine opens_of_build (hlocator ▸ Names.transcript haccepted message.messageId.toList index) hplain
    fun terms maxContentChars => ⟨["recent transcript".toList], none, ?_⟩
  rw [hreread, htitle, hcandidate, getArchiveRecord_transcript rfl rfl rfl hmessages, hfirst]
  exact if_neg hne

theorem first_of_opens {message : SessionMessageRecord} (hmessages : corpus.loadRecentRecords chatId = .ok messages)
    (hr : transcriptCandidate texts none chatId index message = some r) (h : Opens texts corpus r) :
    ∃ first, messages.find? (fun m => m.messageId.toList = message.messageId.toList) = some first ∧
      trim first.content.toList ≠ [] := by
  obtain ⟨-, -, -, hlocator⟩ := transcriptCandidate_eq_some hr
  have hnames : Names r.locator message.messageId.toList := hlocator ▸ Names.transcript haccepted message.messageId.toList index
  have hplain := plain_of_opens hnames h
  obtain ⟨locator, record, hparse, hget, -⟩ := h [] 0
  have hreread : reread r.locator = ⟨.transcript, some chatId, some message.messageId.toList, none, none, none⟩ := by
    rw [hlocator, reread]
    simp only [Option.map_none, Option.map_some, readBack_of_plain hplain]
  rw [parseRecordId_recordId hnames, hreread] at hparse
  cases hparse
  rw [getArchiveRecord_transcript rfl rfl rfl hmessages] at hget
  split at hget
  · cases hget
  · rename_i first hfind
    refine ⟨first, hfind, fun hblank => ?_⟩
    rw [if_pos hblank] at hget
    cases hget

end

/-! The messages of a chat. -/

theorem find?_of_pairwise {message : SessionMessageRecord}
    (h : messages.Pairwise fun earlier later => earlier.messageId = later.messageId → trim later.content.toList = [])
    (hmessage : messages[index]? = some message) (hne : trim message.content.toList ≠ []) :
    messages.find? (fun m => m.messageId.toList = message.messageId.toList) = some message := by
  obtain ⟨hindex, rfl⟩ := List.getElem?_eq_some_iff.mp hmessage
  refine List.find?_eq_some_iff_getElem.mpr ⟨by simp, index, hindex, rfl, fun j hj => ?_⟩
  simp only [Bool.not_eq_true', decide_eq_false_iff_not]
  intro heq
  exact hne (List.pairwise_iff_getElem.mp h j index (by omega) hindex hj (String.toList_inj.mp heq))

/-- Where the ids do not tell, a record that is first with its id has the record id of a later one. -/
theorem messageIdsTell_of_opens (haccepted : AcceptedChats corpus)
    (hlive : collectLiveArchiveCandidates texts corpus allRecords = .ok live) (hids : RecordIdsTell live)
    (hopens : ∀ r ∈ live, Opens texts corpus r) : MessageIdsTell corpus := by
  intro chatIds hchatIds chatId hchat messages hmessages
  rw [List.pairwise_iff_getElem]
  intro i j hi hj hij heq
  by_contra hne
  have hlisted (k : Nat) (hk : k < messages.length) : ListedMessage corpus chatId k messages[k] :=
    ⟨⟨chatIds, hchatIds, hchat⟩, messages, hmessages, List.getElem?_eq_getElem hk⟩
  obtain ⟨r, hr⟩ := exists_transcriptCandidate texts chatId j hne
  have hmem := mem_of_listedMessage hlive (hlisted j hj) hr
  obtain ⟨first, hfind, hfirst⟩ := first_of_opens (haccepted chatIds hchatIds chatId hchat) hmessages hr (hopens r hmem)
  obtain ⟨hid, k, hk, rfl, hbefore⟩ := List.find?_eq_some_iff_getElem.mp hfind
  have hki : k ≤ i := by
    by_contra hlt
    have := hbefore i (by omega)
    simp [heq] at this
  obtain ⟨r', hr'⟩ := exists_transcriptCandidate texts chatId k hfirst
  have hmem' := mem_of_listedMessage hlive (hlisted k hk) hr'
  have hlocator := (transcriptCandidate_eq_some hr).2.2.2
  have hlocator' := (transcriptCandidate_eq_some hr').2.2.2
  have hsame : r.locator = r'.locator := by
    apply hids r hmem r' hmem'
    simp only [decide_eq_true_eq] at hid
    simp only [hlocator, hlocator', ArchiveRecordLocator.recordId, hid]
  rw [hlocator, hlocator'] at hsame
  simp only [ArchiveRecordLocator.mk.injEq, Option.some.injEq, true_and, and_true] at hsame
  omega

/-- Where the ids tell, a message that is not blank is the only one with its id that is not. -/
theorem index_of_messageId {i j : Nat} {message message' : SessionMessageRecord}
    (h : messages.Pairwise fun earlier later => earlier.messageId = later.messageId → trim later.content.toList = [])
    (hi : messages[i]? = some message) (hj : messages[j]? = some message') (hne : trim message.content.toList ≠ [])
    (hne' : trim message'.content.toList ≠ []) (hid : message.messageId = message'.messageId) : i = j := by
  obtain ⟨hlen, rfl⟩ := List.getElem?_eq_some_iff.mp hi
  obtain ⟨hlen', rfl⟩ := List.getElem?_eq_some_iff.mp hj
  rw [List.pairwise_iff_getElem] at h
  rcases Nat.lt_trichotomy i j with hlt | heq | hlt
  · exact absurd (h i j hlen hlen' hlt hid) hne'
  · exact heq
  · exact absurd (h j i hlen' hlen hlt hid.symm) hne

theorem recordIdsTell_of_messageIdsTell (haccepted : AcceptedChats corpus)
    (hlive : collectLiveArchiveCandidates texts corpus allRecords = .ok live) (hids : MessageIdsTell corpus) :
    RecordIdsTell live := by
  intro r hr r' hr' heq
  have hrecorded := recorded_of_mem hlive hr
  have hrecorded' := recorded_of_mem hlive hr'
  have hnames := hrecorded.names haccepted
  have hnames' := hrecorded'.names haccepted
  obtain ⟨hsource, hchat, hidentifier⟩ := eq_of_recordId hnames hnames' heq
  refine Names.ext hnames hnames' hsource hchat hidentifier ?_
  by_cases htranscript : r.locator.source = .transcript
  · obtain ⟨chatId, i, message, hmessage, hr⟩ := hrecorded.message htranscript
    obtain ⟨chatId', j, message', hmessage', hr'⟩ := hrecorded'.message (hsource.trans htranscript)
    obtain ⟨hne, -, -, hlocator⟩ := transcriptCandidate_eq_some hr
    obtain ⟨hne', -, -, hlocator'⟩ := transcriptCandidate_eq_some hr'
    rw [hlocator, hlocator'] at hchat hidentifier
    obtain rfl : chatId' = chatId := Option.some.inj hchat
    obtain ⟨⟨chatIds, hchatIds, hchat⟩, messages, hmessages, hfound⟩ := hmessage
    obtain ⟨-, messages', hmessages', hfound'⟩ := hmessage'
    rw [hmessages] at hmessages'
    cases hmessages'
    rw [hlocator, hlocator']
    exact congrArg some (index_of_messageId (hids chatIds hchatIds _ hchat messages hmessages) hfound hfound' hne hne'
      (String.toList_inj.mp hidentifier.symm))
  · rw [hnames.index_eq_none htranscript, hnames'.index_eq_none (hsource ▸ htranscript)]

theorem opens_of_tell (haccepted : AcceptedChats corpus)
    (hlive : collectLiveArchiveCandidates texts corpus allRecords = .ok live) (hids : MessageIdsTell corpus)
    (hr : r ∈ live) (hplain : Plain r.locator.identifier) : Opens texts corpus r := by
  cases recorded_of_mem hlive hr with
  | transcript hmessage hr =>
    obtain ⟨hne, -, -, hlocator⟩ := transcriptCandidate_eq_some hr
    obtain ⟨⟨chatIds, hchatIds, hchat⟩, messages, hmessages, hfound⟩ := hmessage
    rw [hlocator] at hplain
    exact opens_transcript (haccepted chatIds hchatIds _ hchat) hmessages hr hplain
      (find?_of_pairwise (hids chatIds hchatIds _ hchat messages hmessages) hfound hne)
  | dailyNote hcontent hr =>
    rw [(dailyNoteCandidate_eq_some hr).2.2.2] at hplain
    exact opens_dailyNote hcontent hr hplain
  | turnLog hchatIds hchat hledger hr =>
    rw [(turnLogCandidate_eq_some hr).2.2.2] at hplain
    exact opens_turnLog (haccepted _ hchatIds _ hchat) hledger hr hplain

/-- The record ids name the live records, and each opens its own, exactly when every identifier is plain and no message
has the id of an earlier one of its chat. -/
theorem opens_iff (haccepted : AcceptedChats corpus)
    (hlive : collectLiveArchiveCandidates texts corpus allRecords = .ok live) :
    (RecordIdsTell live ∧ ∀ r ∈ live, Opens texts corpus r) ↔
      (∀ r ∈ live, Plain r.locator.identifier) ∧ MessageIdsTell corpus := by
  constructor
  · rintro ⟨hids, hopens⟩
    refine ⟨fun r hr => ?_, messageIdsTell_of_opens haccepted hlive hids hopens⟩
    exact plain_of_opens ((recorded_of_mem hlive hr).names haccepted) (hopens r hr)
  · rintro ⟨hplain, hids⟩
    exact ⟨recordIdsTell_of_messageIdsTell haccepted hlive hids, fun r hr => opens_of_tell haccepted hlive hids hr (hplain r hr)⟩

/-- The texts of an archive in which no ledger is written and an excerpt is the whole content. -/
def plainTexts : ArchiveTexts Unit := ⟨id, fun _ => [], fun _ content => content⟩

/-- A chat `c1` with one message of the given id. -/
def oneMessage (messageId : String) : Corpus Unit :=
  { listChatIds := .ok ["c1".toList]
    loadRecentRecords := fun _ => .ok [⟨messageId, "user", "hi"⟩]
    listDailyNoteNames := .ok []
    getDailyNote := fun _ => .ok []
    turnLedger := fun _ => .ok none }

def oneRecord (messageId : String) : ArchiveSearchCandidate :=
  { locator := ⟨.transcript, some "c1".toList, some messageId.toList, some 0, none, none⟩
    title := "user in c1".toList
    content := "hi".toList
    cues := ["recent transcript".toList]
    observedAt := none
    currentChatMatch := false
    backendFtsScore := 0 }

theorem collect_oneMessage (messageId : String) :
    collectLiveArchiveCandidates plainTexts (oneMessage messageId) allRecords = .ok [oneRecord messageId] := by
  have hcandidate : transcriptCandidate plainTexts none "c1".toList 0 ⟨messageId, "user", "hi"⟩ = some (oneRecord messageId) := by
    have hcontent : trim "hi".toList ≠ [] := by decide
    have htrim : trim "hi".toList = "hi".toList := by decide
    have htitle : plainTexts.toUppercase "user".toList ++ (" in ".toList ++ "c1".toList) = "user in c1".toList := by decide
    dsimp only [transcriptCandidate]
    rw [if_neg hcontent, htrim, htitle]
    rfl
  have hcandidates : transcriptCandidates plainTexts (oneMessage messageId) none "c1".toList = .ok [oneRecord messageId] := by
    change Except.ok (List.filterMap _ [_]) = _
    simp only [List.filterMap_cons, hcandidate, List.filterMap_nil]
  have hgather : gather (transcriptCandidates plainTexts (oneMessage messageId) none) ["c1".toList] =
      .ok [oneRecord messageId] := by
    simp only [gather, hcandidates]
    rfl
  have hchatIds : (oneMessage messageId).listChatIds = .ok ["c1".toList] := rfl
  simp only [collectLiveArchiveCandidates, allRecords, ArchiveSearchQuery.wants, List.isEmpty_nil, Bool.true_or, whenWanted,
    if_true, collectArchiveChatIds, Option.map_none, Option.filter_none, hchatIds, Except.mapError, bind, Except.bind, hgather]
  rfl

theorem acceptedChats_oneMessage (messageId : String) : AcceptedChats (oneMessage messageId) := by
  intro chatIds hchatIds chatId hchat
  cases hchatIds
  rw [List.mem_singleton.mp hchat]
  exact ⟨by decide, by decide⟩

theorem named_message_opens :
    (RecordIdsTell [oneRecord "msg_1"] ∧ ∀ r ∈ [oneRecord "msg_1"], Opens plainTexts (oneMessage "msg_1") r) ↔
      (∀ r ∈ [oneRecord "msg_1"], Plain r.locator.identifier) ∧ MessageIdsTell (oneMessage "msg_1") :=
  opens_iff (acceptedChats_oneMessage "msg_1") (collect_oneMessage "msg_1")

/-- The id is read again up to its bar, and no message has what is left of it. -/
theorem barred_message_lost :
    ¬ ∀ (D : Type) (texts : ArchiveTexts D) (corpus : Corpus D) (live : List ArchiveSearchCandidate), AcceptedChats corpus →
      collectLiveArchiveCandidates texts corpus allRecords = .ok live →
        RecordIdsTell live ∧ ∀ r ∈ live, Opens texts corpus r := by
  intro h
  have hopens := (h Unit plainTexts (oneMessage "om_1|2") [oneRecord "om_1|2"] (acceptedChats_oneMessage "om_1|2")
    (collect_oneMessage "om_1|2")).2 (oneRecord "om_1|2") (List.mem_singleton_self _)
  have haccepted : AcceptedChatId "c1".toList := ⟨by decide, by decide⟩
  have hplain := plain_of_opens (.transcript haccepted "om_1|2".toList 0) hopens
  exact absurd hplain.bar (by decide)

end Beetle.Memory.Archive
