import Beetle.Lib.Run
import Beetle.Memory.ArchiveLocators

/-! The index of the archive from one rebuilding to the next. -/
namespace Beetle.Memory.Archive
open Beetle.Lib

def archiveIndexVersion : Nat := 2

def archiveDocument (candidate : ArchiveSearchCandidate) (rowid : Nat) : ArchiveDocument :=
  { rowid
    locator := candidate.locator
    title := candidate.title
    content := candidate.content
    cues := candidate.cues
    observedAt := candidate.observedAt }

/-- The rows in the order in which they are inserted into the empty table. -/
def archiveDocuments (candidates : List ArchiveSearchCandidate) : List ArchiveDocument :=
  (candidates.zipIdx 1).map fun (candidate, rowid) => archiveDocument candidate rowid

theorem map_recordId_archiveDocuments (candidates : List ArchiveSearchCandidate) :
    (archiveDocuments candidates).map ArchiveDocument.recordId = candidates.map (·.locator.recordId) := by
  rw [archiveDocuments, List.map_map]
  conv_rhs => rw [← List.zipIdx_map_fst 1 candidates, List.map_map]
  rfl

theorem nodup_rowid_archiveDocuments (candidates : List ArchiveSearchCandidate) :
    ((archiveDocuments candidates).map ArchiveDocument.rowid).Nodup := by
  have hrowids : (archiveDocuments candidates).map ArchiveDocument.rowid = (candidates.zipIdx 1).map Prod.snd := by
    rw [archiveDocuments, List.map_map]
    rfl
  rw [hrowids, List.zipIdx_map_snd]
  exact List.nodup_range'

/-- The database: its `version` and `signature`, and the rows. -/
structure ArchiveStore (S : Type) where
  version : Option (List Char)
  signature : Option S
  index : ArchiveIndex

/-- The database with nothing in it but its tables. -/
def ArchiveStore.empty (S : Type) : ArchiveStore S := ⟨none, none, ⟨[], List.nodup_nil, List.nodup_nil⟩⟩

variable {D S R : Type} [DecidableEq S] [LinearOrder R]

def archiveSqliteNeedsRebuild (store : ArchiveStore S) (signature : S) : Bool :=
  store.version ≠ some (decimal archiveIndexVersion) || store.signature ≠ some signature

/-- A second row of one record id breaks the primary key, and the transaction is given up. -/
def archiveSqliteRebuild (candidates : List ArchiveSearchCandidate) (signature : S) : Except Error (ArchiveStore S) :=
  if h : (candidates.map (·.locator.recordId)).Nodup then
    .ok ⟨some (decimal archiveIndexVersion), some signature,
      ⟨archiveDocuments candidates, map_recordId_archiveDocuments candidates ▸ h, nodup_rowid_archiveDocuments candidates⟩⟩
  else .error (.config "UNIQUE constraint failed: archive_documents.record_id" "archive_index")

/-- What the calls work with: the signature of a corpus, the terms of a query, and the search of SQLite. -/
structure ArchiveBackend (D S R : Type) [LinearOrder R] where
  texts : ArchiveTexts D
  signature : Corpus D → S
  matchTerms : List Char → List (List Char)
  fts : FullTextSearch R

namespace ArchiveBackend
variable (b : ArchiveBackend D S R)

/-- The rebuilding that both calls do when the index is not that of the corpus. -/
def rebuild (corpus : Corpus D) (store : ArchiveStore S) (query : ArchiveSearchQuery) : Except Error (ArchiveStore S) :=
  if archiveSqliteNeedsRebuild store (b.signature corpus) then do
    let live ← collectLiveArchiveCandidates b.texts corpus query
    archiveSqliteRebuild live (b.signature corpus)
  else .ok store

/-- The candidates of a search, whose hits are made of nothing else; where the index cannot be had they are collected. -/
@[grind =] def search (corpus : Corpus D) (store : ArchiveStore S) (query : ArchiveSearchQuery) :
    ArchiveStore S × Except Error (List ArchiveSearchCandidate) :=
  let terms := b.matchTerms query.query
  match b.rebuild corpus store query with
  | .ok store => (store, .ok (queryArchiveCandidatesSqlite b.fts store.index (.new query terms) terms))
  | .error _ => (store, collectLiveArchiveCandidates b.texts corpus query)

/-- `maintain_archive_search_backend`, which says whether it has rebuilt the index. -/
def maintain (corpus : Corpus D) (store : ArchiveStore S) : ArchiveStore S × Except Error Bool :=
  match b.rebuild corpus store allRecords with
  | .ok rebuilt => (rebuilt, .ok (archiveSqliteNeedsRebuild store (b.signature corpus)))
  | .error error => (store, .error error)

end ArchiveBackend

/-- What happens to the archive. -/
inductive ArchiveEvent (D : Type) where
  | change (corpus : Corpus D)
  | search (query : ArchiveSearchQuery)
  | maintain

structure ArchiveWorld (D S : Type) where
  corpus : Corpus D
  store : ArchiveStore S

namespace ArchiveWorld
variable (b : ArchiveBackend D S R)

def apply (w : ArchiveWorld D S) : ArchiveEvent D → ArchiveWorld D S
  | .change corpus => { w with corpus }
  | .search query => { w with store := (b.search w.corpus w.store query).1 }
  | .maintain => { w with store := (b.maintain w.corpus w.store).1 }

def step (w : ArchiveWorld D S) (e : ArchiveEvent D) : Option (ArchiveWorld D S) := some (w.apply b e)

/-- An index with the signature of the corpus has the record ids of the live records. -/
def Complete (w : ArchiveWorld D S) : Prop :=
  w.store.signature = some (b.signature w.corpus) →
    ∀ live, collectLiveArchiveCandidates b.texts w.corpus allRecords = .ok live →
      ∀ id, id ∈ w.store.index.documents.map ArchiveDocument.recordId ↔ id ∈ live.map (·.locator.recordId)

end ArchiveWorld

/-! What a collection holds. -/

section Collected

/-- What a call has given, and nothing where it has failed. -/
def given {α : Type} (x : Except Error (List α)) : List α :=
  match x with
  | .ok as => as
  | .error _ => []

theorem eq_of_gather {α β : Type} {f : α → Except Error (List β)} {l : List α} {bs : List β} (h : gather f l = .ok bs) :
    bs = l.flatMap fun a => given (f a) := by
  induction l generalizing bs with
  | nil =>
    cases h
    rfl
  | cons a l ih =>
    obtain ⟨cs, hcs, h⟩ := except_bind_ok h
    obtain ⟨rest, hrest, h⟩ := except_bind_ok h
    cases h
    rw [List.flatMap_cons, hcs, ← ih hrest]
    rfl

variable (texts : ArchiveTexts D) (corpus : Corpus D) (preferredChatId : Option (List Char))

/-- The records of one kind that a chat has. -/
def chatRecords (source : ArchiveRecordSource) (chatId : List Char) : List ArchiveSearchCandidate :=
  match source with
  | .transcript => given (transcriptCandidates texts corpus preferredChatId chatId)
  | .turnLog => given (turnLogCandidates texts corpus preferredChatId chatId)
  | .dailyNote => []

def noteRecords : List ArchiveSearchCandidate := given (collectDailyNotes corpus)

/-- The records of the chats that are looked through. -/
def wantedRecords (query : ArchiveSearchQuery) (looked : List (List Char)) (source : ArchiveRecordSource) :
    List ArchiveSearchCandidate :=
  if query.wants source then looked.flatMap (chatRecords texts corpus query.preferredChatId source) else []

variable {texts corpus} {query : ArchiveSearchQuery} {live : List ArchiveSearchCandidate} {source : ArchiveRecordSource}
  {looked : List (List Char)} {listed : List (List Char)} {chatId : List Char} {listed looked : List (List Char)}

theorem given_of_whenWanted {α : Type} {wanted : Bool} {x : Except Error (List α)} {l : List α}
    (h : whenWanted wanted x = .ok l) : l = if wanted then given x else [] := by
  cases wanted with
  | false =>
    cases h
    rfl
  | true =>
    rw [whenWanted, if_pos rfl] at h
    rw [if_pos rfl, h]
    rfl

theorem wantedRecords_of_gather
    {f : List Char → Except Error (List ArchiveSearchCandidate)} {records : List ArchiveSearchCandidate}
    (h : whenWanted (query.wants source) (gather f looked) = .ok records)
    (hf : ∀ chatId, chatRecords texts corpus query.preferredChatId source chatId = given (f chatId)) :
    records = wantedRecords texts corpus query looked source := by
  rw [given_of_whenWanted h, wantedRecords]
  split
  · rename_i hwants
    rw [hwants, whenWanted, if_pos rfl] at h
    rw [h, given, eq_of_gather h]
    exact congrArg looked.flatMap (funext fun chatId => (hf chatId).symm)
  · rfl

/-- What a collection holds, told by what each chat has. -/
theorem records_of_collect (h : collectLiveArchiveCandidates texts corpus query = .ok live) :
    ∃ looked, whenWanted (query.wants .transcript || query.wants .turnLog)
        (collectArchiveChatIds corpus query.preferredChatId query.chatIdFilter) = .ok looked ∧
      live = wantedRecords texts corpus query looked .transcript ++
        (if query.wants .dailyNote then noteRecords corpus else []) ++ wantedRecords texts corpus query looked .turnLog := by
  obtain ⟨looked, transcripts, dailyNotes, turnLogs, hlooked, htranscripts, hdailyNotes, hturnLogs, rfl⟩ := collect_eq_ok h
  refine ⟨looked, hlooked, ?_⟩
  rw [wantedRecords_of_gather htranscripts fun _ => rfl, wantedRecords_of_gather hturnLogs fun _ => rfl,
    given_of_whenWanted hdailyNotes]
  rfl

/-- What a record shows of the chat that is preferred. -/
def preferring (preferredChatId : Option (List Char)) (chatId : List Char) (r : ArchiveSearchCandidate) :
    ArchiveSearchCandidate :=
  { r with cues := r.cues ++ currentChatCues preferredChatId chatId, currentChatMatch := preferredChatId = some chatId }

theorem transcriptCandidate_eq_map (chatId : List Char) (index : Nat) (message : SessionMessageRecord) :
    transcriptCandidate texts preferredChatId chatId index message =
      (transcriptCandidate texts none chatId index message).map (preferring preferredChatId chatId) := by
  dsimp only [transcriptCandidate]
  split
  · rfl
  · rfl

theorem turnLogCandidate_eq_map (chatId : List Char) (ledger : TurnLedger D) :
    turnLogCandidate texts preferredChatId chatId ledger =
      (turnLogCandidate texts none chatId ledger).map (preferring preferredChatId chatId) := by
  dsimp only [turnLogCandidate]
  split
  · rfl
  · rfl

theorem chatRecords_eq_map (source : ArchiveRecordSource) (chatId : List Char) :
    chatRecords texts corpus preferredChatId source chatId =
      (chatRecords texts corpus none source chatId).map (preferring preferredChatId chatId) := by
  cases source with
  | transcript =>
    dsimp only [chatRecords, transcriptCandidates]
    cases corpus.loadRecentRecords chatId with
    | error error => rfl
    | ok messages =>
      change List.filterMap _ _ = (List.filterMap _ _).map _
      rw [List.map_filterMap]
      exact congrArg (fun f => messages.zipIdx.filterMap f) (funext fun (message, index) =>
        transcriptCandidate_eq_map preferredChatId chatId index message)
  | dailyNote => rfl
  | turnLog =>
    dsimp only [chatRecords, turnLogCandidates]
    cases corpus.turnLedger chatId with
    | error error => rfl
    | ok ledger =>
      cases ledger with
      | none => rfl
      | some ledger =>
        change (turnLogCandidate texts preferredChatId chatId ledger).toList = (turnLogCandidate texts none chatId ledger).toList.map _
        rw [turnLogCandidate_eq_map preferredChatId, Option.toList_map]

theorem recordIds_chatRecords (source : ArchiveRecordSource) (chatId : List Char) :
    (chatRecords texts corpus preferredChatId source chatId).map (·.locator.recordId) =
      (chatRecords texts corpus none source chatId).map (·.locator.recordId) := by
  rw [chatRecords_eq_map, List.map_map]
  rfl

theorem chatRecords_eq_nil_iff (source : ArchiveRecordSource) (chatId : List Char) :
    chatRecords texts corpus preferredChatId source chatId = [] ↔ chatRecords texts corpus none source chatId = [] := by
  rw [chatRecords_eq_map, List.map_eq_nil_iff]

/-- No kind and no listed chat that has records is left out of the query, and no other chat that has records of a wanted
kind is looked through. -/
structure LeavesNothingOut (texts : ArchiveTexts D) (corpus : Corpus D) (query : ArchiveSearchQuery) : Prop where
  chats : ∀ listed looked, corpus.listChatIds = .ok listed →
    collectArchiveChatIds corpus query.preferredChatId query.chatIdFilter = .ok looked →
      ∀ source chatId, chatRecords texts corpus none source chatId ≠ [] →
        (query.wants source = true ∧ chatId ∈ looked ↔ chatId ∈ listed)
  dailyNotes : noteRecords corpus ≠ [] → query.wants .dailyNote = true

theorem LeavesNothingOut.notes_eq (h : LeavesNothingOut texts corpus query) :
    (if query.wants .dailyNote then noteRecords corpus else []) = noteRecords corpus := by
  split
  · rfl
  · rename_i hwants
    by_contra hne
    exact hwants (h.dailyNotes fun hnil => hne hnil.symm)

/-- A query without filters asks for everything, as the one of the upkeep does. -/
theorem leavesNothingOut_of_unfiltered (hsources : query.sources = []) (hpreferred : query.preferredChatId = none)
    (hfilter : query.chatIdFilter = none) : LeavesNothingOut texts corpus query := by
  have hwants (source : ArchiveRecordSource) : query.wants source = true := by rw [ArchiveSearchQuery.wants, hsources]; rfl
  refine ⟨fun listed looked hlisted hlooked source chatId _ => ?_, fun _ => hwants .dailyNote⟩
  rw [hpreferred, hfilter] at hlooked
  obtain ⟨chatIds, hchatIds, hlooked⟩ := except_bind_ok hlooked
  cases hlooked
  rw [mapError_eq_ok hchatIds] at hlisted
  cases hlisted
  exact ⟨And.right, fun hchat => ⟨hwants source, hchat⟩⟩

theorem mem_wantedRecords_iff {id : List Char} :
    id ∈ (wantedRecords texts corpus query looked source).map (·.locator.recordId) ↔
      query.wants source = true ∧ ∃ chatId ∈ looked, id ∈ (chatRecords texts corpus none source chatId).map (·.locator.recordId) := by
  rw [wantedRecords]
  split
  · rename_i hwants
    rw [List.map_flatMap, List.mem_flatMap]
    simp only [recordIds_chatRecords, hwants, true_and]
  · rename_i hwants
    simp [hwants]

theorem exists_looked (hlisted : corpus.listChatIds = .ok listed) (preferredChatId chatIdFilter : Option (List Char)) :
    ∃ looked, collectArchiveChatIds corpus preferredChatId chatIdFilter = .ok looked := by
  rw [collectArchiveChatIds]
  split
  · exact ⟨_, rfl⟩
  · rw [hlisted]
    dsimp only [Except.mapError, bind, Except.bind]
    split
    · exact ⟨_, rfl⟩
    · exact ⟨_, rfl⟩

theorem looked_of_wants (hsource : source ≠ .dailyNote) {x : Except Error (List (List Char))}
    (h : whenWanted (query.wants .transcript || query.wants .turnLog) x = .ok looked) (hwants : query.wants source = true) :
    x = .ok looked := by
  have hor : (query.wants .transcript || query.wants .turnLog) = true := by
    cases source with
    | transcript => rw [hwants, Bool.true_or]
    | dailyNote => exact absurd rfl hsource
    | turnLog => rw [hwants, Bool.or_true]
  rwa [hor, whenWanted, if_pos rfl] at h

/-- What all the records are. -/
theorem records_of_allRecords (h : collectLiveArchiveCandidates texts corpus allRecords = .ok live) :
    ∃ listed, corpus.listChatIds = .ok listed ∧
      live = listed.flatMap (chatRecords texts corpus none .transcript) ++ noteRecords corpus ++
        listed.flatMap (chatRecords texts corpus none .turnLog) := by
  obtain ⟨looked, hlooked, rfl⟩ := records_of_collect h
  have htranscript : ArchiveRecordSource.transcript ≠ .dailyNote := by simp
  obtain ⟨listed, hlisted, hlooked⟩ := except_bind_ok (looked_of_wants htranscript hlooked rfl)
  cases hlooked
  exact ⟨looked, mapError_eq_ok hlisted, rfl⟩

theorem mem_chats_iff (hsource : source ≠ .dailyNote)
    (hlisted : corpus.listChatIds = .ok listed) (hlooked : whenWanted (query.wants .transcript || query.wants .turnLog)
      (collectArchiveChatIds corpus query.preferredChatId query.chatIdFilter) = .ok looked)
    (h : LeavesNothingOut texts corpus query) (hrecords : chatRecords texts corpus none source chatId ≠ []) :
    query.wants source = true ∧ chatId ∈ looked ↔ chatId ∈ listed := by
  obtain ⟨looked', hlooked'⟩ := exists_looked hlisted query.preferredChatId query.chatIdFilter
  have hiff := h.chats listed looked' hlisted hlooked' source chatId hrecords
  cases hwants : query.wants source with
  | false =>
    rw [hwants] at hiff
    simpa using hiff
  | true =>
    have heq := looked_of_wants hsource hlooked hwants
    rw [hlooked'] at heq
    cases heq
    rw [hwants] at hiff
    exact hiff

/-- A query that leaves nothing out collects every record id. -/
theorem mem_recordIds_iff (h : LeavesNothingOut texts corpus query)
    (hlive : collectLiveArchiveCandidates texts corpus query = .ok live) {all : List ArchiveSearchCandidate}
    (hall : collectLiveArchiveCandidates texts corpus allRecords = .ok all) (id : List Char) :
    id ∈ live.map (·.locator.recordId) ↔ id ∈ all.map (·.locator.recordId) := by
  obtain ⟨looked, hlooked, rfl⟩ := records_of_collect hlive
  obtain ⟨listed, hlisted, rfl⟩ := records_of_allRecords hall
  have hchats (source : ArchiveRecordSource) (hsource : source ≠ .dailyNote) :
      id ∈ (wantedRecords texts corpus query looked source).map (·.locator.recordId) ↔
        id ∈ (listed.flatMap (chatRecords texts corpus none source)).map (·.locator.recordId) := by
    rw [mem_wantedRecords_iff, List.map_flatMap, List.mem_flatMap]
    constructor
    · rintro ⟨hwants, chatId, hchat, hid⟩
      have hne := List.ne_nil_of_mem hid
      exact ⟨chatId, (mem_chats_iff hsource hlisted hlooked h (by simpa using hne)).mp ⟨hwants, hchat⟩, hid⟩
    · rintro ⟨chatId, hchat, hid⟩
      have hne := List.ne_nil_of_mem hid
      obtain ⟨hwants, hlook⟩ := (mem_chats_iff hsource hlisted hlooked h (by simpa using hne)).mpr hchat
      exact ⟨hwants, chatId, hlook, hid⟩
  simp only [List.map_append, List.mem_append, h.notes_eq, hchats .transcript (by simp), hchats .turnLog (by simp)]

/-! The order of the records. -/

/-- The listed chats, with the preferred one first when it is one of them. -/
@[grind =] def preferredFirst (preferredChatId : Option (List Char)) (listed : List (List Char)) : List (List Char) :=
  match (preferredChatId.map trim).filter (· ≠ []) with
  | some preferred => if preferred ∈ listed then preferred :: listed.filter (· ≠ preferred) else listed
  | none => listed

theorem mem_of_mem_preferredFirst (h : chatId ∈ preferredFirst preferredChatId listed) : chatId ∈ listed := by
  rw [preferredFirst] at h
  split at h
  · split at h
    · rename_i hpreferred
      rcases List.mem_cons.mp h with rfl | h
      · exact hpreferred
      · exact (List.mem_filter.mp h).1
    · exact h
  · exact h

theorem mem_preferredFirst (h : chatId ∈ listed) : chatId ∈ preferredFirst preferredChatId listed := by
  rw [preferredFirst]
  split
  · rename_i preferred _
    split
    · by_cases heq : chatId = preferred
      · exact List.mem_cons.mpr (.inl heq)
      · exact List.mem_cons_of_mem _ (List.mem_filter.mpr ⟨h, by simpa using heq⟩)
    · exact h
  · exact h

theorem count_preferredFirst_le (h : listed.count chatId ≤ 1) :
    (preferredFirst preferredChatId listed).count chatId ≤ 1 := by
  rw [preferredFirst]
  split
  · rename_i preferred _
    split
    · by_cases heq : preferred = chatId
      · subst heq
        rw [List.count_cons_self, List.count_eq_zero_of_not_mem (by simp)]
      · rw [List.count_cons_of_ne heq]
        exact (List.filter_sublist.count_le chatId).trans h
    · exact h
  · exact h

/-- A chat that has records is listed once where no two records share an id. -/
theorem count_le_one_of_nodup (hne : chatRecords texts corpus none source chatId ≠ [])
    (h : ((listed.flatMap (chatRecords texts corpus none source)).map (·.locator.recordId)).Nodup) :
    listed.count chatId ≤ 1 := by
  obtain ⟨r, hr⟩ := List.exists_mem_of_ne_nil _ hne
  rw [List.map_flatMap] at h
  refine countP_le_one_of_nodup_flatMap (b := r.locator.recordId) ?_ h
  intro other _ heq
  rw [beq_iff_eq] at heq
  subst heq
  exact List.mem_map_of_mem hr

/-- A query that leaves nothing out collects the records in the order of the listed chats, whatever its filters are. -/
theorem wantedRecords_eq (hsource : source ≠ .dailyNote)
    (hlisted : corpus.listChatIds = .ok listed) (hlooked : whenWanted (query.wants .transcript || query.wants .turnLog)
      (collectArchiveChatIds corpus query.preferredChatId query.chatIdFilter) = .ok looked)
    (h : LeavesNothingOut texts corpus query)
    (hnodup : ((listed.flatMap (chatRecords texts corpus none source)).map (·.locator.recordId)).Nodup) :
    wantedRecords texts corpus query looked source =
      (preferredFirst query.preferredChatId listed).flatMap (chatRecords texts corpus query.preferredChatId source) := by
  have hchats {chatId : List Char} (hne : chatRecords texts corpus query.preferredChatId source chatId ≠ []) :=
    mem_chats_iff hsource hlisted hlooked h ((chatRecords_eq_nil_iff _ source chatId).not.mp hne)
  rw [wantedRecords]
  split
  · rename_i hwants
    have hlook := looked_of_wants hsource hlooked hwants
    rw [collectArchiveChatIds] at hlook
    split at hlook
    · rename_i filtered _
      cases hlook
      rw [List.flatMap_singleton]
      have hothers : ∀ chatId ∈ preferredFirst query.preferredChatId listed, (chatId == filtered) = false →
          chatRecords texts corpus query.preferredChatId source chatId = [] := by
        intro chatId hchat hne
        by_contra hrecords
        obtain ⟨-, hmem⟩ := (hchats hrecords).mpr (mem_of_mem_preferredFirst _ hchat)
        rw [List.mem_singleton.mp hmem, beq_self_eq_true] at hne
        cases hne
      by_cases hrecords : chatRecords texts corpus query.preferredChatId source filtered = []
      · rw [hrecords, Eq.comm, List.flatMap_eq_nil_iff]
        intro chatId hchat
        by_cases heq : chatId = filtered
        · rw [heq, hrecords]
        · exact hothers chatId hchat (by simpa using heq)
      · have hmem := mem_preferredFirst query.preferredChatId ((hchats hrecords).mp ⟨hwants, List.mem_singleton_self _⟩)
        have hcount := count_preferredFirst_le query.preferredChatId
          (count_le_one_of_nodup ((chatRecords_eq_nil_iff _ source filtered).not.mp hrecords) hnodup)
        rcases flatMap_of_countP_le_one hothers hcount with hnil | ⟨chatId, hchat, heq⟩
        · exact absurd (List.flatMap_eq_nil_iff.mp hnil filtered hmem) hrecords
        · by_cases hsame : chatId = filtered
          · rw [heq, hsame]
          · rw [hothers chatId hchat (by simpa using hsame), List.flatMap_eq_nil_iff] at heq
            exact absurd (heq filtered hmem) hrecords
    · rw [hlisted] at hlook
      dsimp only [Except.mapError, bind, Except.bind] at hlook
      rw [preferredFirst]
      cases hpreferred : (query.preferredChatId.map trim).filter (· ≠ []) with
      | some preferred =>
        rw [hpreferred] at hlook
        cases hlook
        dsimp only
        split
        · rfl
        · rename_i hunlisted
          have hnil : chatRecords texts corpus query.preferredChatId source preferred = [] := by
            by_contra hrecords
            exact hunlisted ((hchats hrecords).mp ⟨hwants, List.mem_cons_self⟩)
          have hall : listed.filter (· ≠ preferred) = listed :=
            List.filter_eq_self.mpr fun chatId hchat => by simpa using fun heq : chatId = preferred => hunlisted (heq ▸ hchat)
          rw [List.flatMap_cons, hnil, hall, List.nil_append]
      | none =>
        rw [hpreferred] at hlook
        cases hlook
        rfl
  · rename_i hwants
    rw [Eq.comm, List.flatMap_eq_nil_iff]
    intro chatId hchat
    by_contra hrecords
    exact hwants ((hchats hrecords).mpr (mem_of_mem_preferredFirst _ hchat)).1

/-- The records can be read, and no two of them have one record id. -/
def Indexable (texts : ArchiveTexts D) (corpus : Corpus D) : Prop :=
  ∃ all, collectLiveArchiveCandidates texts corpus allRecords = .ok all ∧ (all.map (·.locator.recordId)).Nodup

/-- Two queries that leave nothing out and prefer one chat collect one list. -/
theorem collect_eq_of_leavesNothingOut {query' : ArchiveSearchQuery} {live' : List ArchiveSearchCandidate}
    (hcorpus : Indexable texts corpus) (h : LeavesNothingOut texts corpus query) (h' : LeavesNothingOut texts corpus query')
    (hpreferred : query.preferredChatId = query'.preferredChatId)
    (hlive : collectLiveArchiveCandidates texts corpus query = .ok live)
    (hlive' : collectLiveArchiveCandidates texts corpus query' = .ok live') : live = live' := by
  obtain ⟨all, hall, hnodup⟩ := hcorpus
  obtain ⟨listed, hlisted, rfl⟩ := records_of_allRecords hall
  obtain ⟨looked, hlooked, rfl⟩ := records_of_collect hlive
  obtain ⟨looked', hlooked', rfl⟩ := records_of_collect hlive'
  rw [List.map_append, List.map_append, List.append_assoc] at hnodup
  have htranscripts := (List.nodup_append.mp hnodup).1
  have hturnLogs := (List.nodup_append.mp (List.nodup_append.mp hnodup).2.1).2.1
  rw [wantedRecords_eq (by simp) hlisted hlooked h htranscripts, wantedRecords_eq (by simp) hlisted hlooked h hturnLogs,
    wantedRecords_eq (by simp) hlisted hlooked' h' htranscripts, wantedRecords_eq (by simp) hlisted hlooked' h' hturnLogs,
    h.notes_eq, h'.notes_eq, hpreferred]

end Collected

/-! Runs. -/

namespace ArchiveWorld
variable {b : ArchiveBackend D S R} {w : ArchiveWorld D S} {corpus : Corpus D} {store rebuilt : ArchiveStore S}
  {query : ArchiveSearchQuery}

theorem rebuild_cases (h : b.rebuild corpus store query = .ok rebuilt) :
    rebuilt = store ∨ archiveSqliteNeedsRebuild store (b.signature corpus) = true ∧
      ∃ live, collectLiveArchiveCandidates b.texts corpus query = .ok live ∧
        rebuilt.signature = some (b.signature corpus) ∧ rebuilt.index.documents = archiveDocuments live := by
  rw [ArchiveBackend.rebuild] at h
  split at h
  · rename_i hneeds
    obtain ⟨live, hlive, h⟩ := except_bind_ok h
    rw [archiveSqliteRebuild] at h
    split at h
    · cases h
      exact .inr ⟨hneeds, live, hlive, rfl, rfl⟩
    · cases h
  · cases h
    exact .inl rfl

/-- A search that finds an index of another corpus has a query that leaves nothing out. -/
def SearchesWhole (b : ArchiveBackend D S R) (w : ArchiveWorld D S) : ArchiveEvent D → Prop
  | .search query => archiveSqliteNeedsRebuild w.store (b.signature w.corpus) = true →
      LeavesNothingOut b.texts w.corpus query
  | _ => True

/-- The index is complete for each of the corpora whose signature it has. -/
def Faithful (b : ArchiveBackend D S R) (corpora : Set (Corpus D)) (store : ArchiveStore S) : Prop :=
  ∀ corpus ∈ corpora, Complete b ⟨corpus, store⟩

variable {corpora : Set (Corpus D)}

theorem faithful_rebuild (hsignature : Set.InjOn b.signature corpora) (hcorpus : corpus ∈ corpora)
    (hstore : Faithful b corpora store)
    (hquery : archiveSqliteNeedsRebuild store (b.signature corpus) = true → LeavesNothingOut b.texts corpus query)
    (h : b.rebuild corpus store query = .ok rebuilt) : Faithful b corpora rebuilt := by
  rcases rebuild_cases h with rfl | ⟨hneeds, live, hlive, hsigned, hdocuments⟩
  · exact hstore
  · intro corpus' hcorpus' hfresh all hall id
    rw [hsigned] at hfresh
    obtain rfl := hsignature hcorpus hcorpus' (Option.some.inj hfresh)
    rw [hdocuments, map_recordId_archiveDocuments]
    exact mem_recordIds_iff (hquery hneeds) hlive hall id

theorem faithful_apply (hsignature : Set.InjOn b.signature corpora) (hcorpus : w.corpus ∈ corpora) {e : ArchiveEvent D}
    (hw : Faithful b corpora w.store) (he : SearchesWhole b w e) : Faithful b corpora (w.apply b e).store := by
  cases e with
  | change corpus => exact hw
  | search query =>
    dsimp only [apply, ArchiveBackend.search]
    cases hrebuild : b.rebuild w.corpus w.store query with
    | error error => exact hw
    | ok rebuilt => exact faithful_rebuild hsignature hcorpus hw he hrebuild
  | maintain =>
    dsimp only [apply, ArchiveBackend.maintain]
    cases hrebuild : b.rebuild w.corpus w.store allRecords with
    | error error => exact hw
    | ok rebuilt => exact faithful_rebuild hsignature hcorpus hw (fun _ => leavesNothingOut_of_unfiltered rfl rfl rfl) hrebuild

theorem corpus_apply_mem (hcorpus : w.corpus ∈ corpora) {e : ArchiveEvent D} (he : ∀ corpus, e = .change corpus → corpus ∈ corpora) :
    (w.apply b e).corpus ∈ corpora := by
  cases e with
  | change corpus => exact he corpus rfl
  | search query => exact hcorpus
  | maintain => exact hcorpus

theorem always_complete_of_faithful (hsignature : Set.InjOn b.signature corpora) {events : List (ArchiveEvent D)}
    (hevents : ∀ corpus, .change corpus ∈ events → corpus ∈ corpora) (hcorpus : w.corpus ∈ corpora)
    (hw : Faithful b corpora w.store) (hwhole : Meets (step b) (SearchesWhole b) events w) :
    Always (step b) (Complete b) events w := by
  induction events generalizing w with
  | nil => exact hw w.corpus hcorpus
  | cons e events ih =>
    refine ⟨hw w.corpus hcorpus, fun t ht => ?_⟩
    obtain ⟨he, hrest⟩ := hwhole t ht
    cases ht
    refine ih (fun corpus h => hevents corpus (List.mem_cons_of_mem e h)) ?_ (faithful_apply hsignature hcorpus hw he) hrest
    exact corpus_apply_mem hcorpus fun corpus heq => hevents corpus (heq ▸ List.mem_cons_self)

/-- Events that differ in no more than the filters, the text and the limit of a search. -/
inductive SameButFilters : ArchiveEvent D → ArchiveEvent D → Prop where
  | change (corpus : Corpus D) : SameButFilters (.change corpus) (.change corpus)
  | search {query query' : ArchiveSearchQuery} (h : query.preferredChatId = query'.preferredChatId) :
      SameButFilters (.search query) (.search query')
  | maintain : SameButFilters .maintain .maintain

/-- The reads of a search succeed, and the records have each their own id. -/
def ReadsWell (b : ArchiveBackend D S R) (w : ArchiveWorld D S) : ArchiveEvent D → Prop
  | .search query => (∃ live, collectLiveArchiveCandidates b.texts w.corpus query = .ok live) ∧ Indexable b.texts w.corpus
  | _ => True

theorem rebuild_eq (store : ArchiveStore S) {query query' : ArchiveSearchQuery}
    {live live' : List ArchiveSearchCandidate} (hlive : collectLiveArchiveCandidates b.texts corpus query = .ok live)
    (hlive' : collectLiveArchiveCandidates b.texts corpus query' = .ok live')
    (h : archiveSqliteNeedsRebuild store (b.signature corpus) = true → live = live') :
    b.rebuild corpus store query = b.rebuild corpus store query' := by
  rw [ArchiveBackend.rebuild, ArchiveBackend.rebuild, hlive, hlive']
  split
  · rename_i hneeds
    rw [h hneeds]
  · rfl

theorem apply_eq_of_sameButFilters {e e' : ArchiveEvent D} (h : SameButFilters e e') (he : SearchesWhole b w e)
    (he' : SearchesWhole b w e') (hreads : ReadsWell b w e) (hreads' : ReadsWell b w e') : w.apply b e = w.apply b e' := by
  cases h with
  | change corpus => rfl
  | maintain => rfl
  | search hpreferred =>
    obtain ⟨⟨live, hlive⟩, hcorpus⟩ := hreads
    obtain ⟨⟨live', hlive'⟩, -⟩ := hreads'
    have hrebuild := rebuild_eq w.store hlive hlive' fun hneeds =>
      collect_eq_of_leavesNothingOut hcorpus (he hneeds) (he' hneeds) hpreferred hlive hlive'
    dsimp only [apply, ArchiveBackend.search]
    rw [hrebuild]
    split
    · rfl
    · rfl

theorem exec_eq_of_sameButFilters {events events' : List (ArchiveEvent D)} (h : List.Forall₂ SameButFilters events events')
    (hwhole : Meets (step b) (SearchesWhole b) events w) (hwhole' : Meets (step b) (SearchesWhole b) events' w)
    (hreads : Meets (step b) (ReadsWell b) events w) (hreads' : Meets (step b) (ReadsWell b) events' w) :
    exec (step b) events w = exec (step b) events' w := by
  induction h generalizing w with
  | nil => rfl
  | @cons e e' events events' he hevents ih =>
    obtain ⟨hwhole, hrest⟩ := hwhole _ rfl
    obtain ⟨hwhole', hrest'⟩ := hwhole' _ rfl
    obtain ⟨hreads, hreadsRest⟩ := hreads _ rfl
    obtain ⟨hreads', hreadsRest'⟩ := hreads' _ rfl
    have heq := apply_eq_of_sameButFilters he hwhole hwhole' hreads hreads'
    rw [exec_cons, exec_cons, step, step, Option.bind_some, Option.bind_some, ← heq]
    rw [← heq] at hrest' hreadsRest'
    exact ih hrest hrest' hreadsRest hreadsRest'

/-- Before anything is indexed. -/
def start (corpus : Corpus D) : ArchiveWorld D S := ⟨corpus, ArchiveStore.empty S⟩

omit [DecidableEq S] in
theorem faithful_start (b : ArchiveBackend D S R) (corpora : Set (Corpus D)) : Faithful b corpora (ArchiveStore.empty S) := by
  intro corpus _ hfresh
  cases hfresh

/-- The corpora of a run. -/
def corporaOf (corpus : Corpus D) (events : List (ArchiveEvent D)) : Set (Corpus D) :=
  {c | c = corpus ∨ .change c ∈ events}

/-- As long as no search rebuilds the index with a query that leaves something out, an index with the signature of the
corpus is complete, and a search gives the same whatever the filters before it were. -/
theorem always_complete (b : ArchiveBackend D S R) (corpus : Corpus D) (events : List (ArchiveEvent D))
    (hsignature : Set.InjOn b.signature (corporaOf corpus events))
    (hwhole : Meets (step b) (SearchesWhole b) events (start corpus)) :
    Always (step b) (Complete b) events (start corpus) ∧
      ∀ events', List.Forall₂ SameButFilters events events' →
        Meets (step b) (SearchesWhole b) events' (start corpus) → Meets (step b) (ReadsWell b) events (start corpus) →
        Meets (step b) (ReadsWell b) events' (start corpus) →
          ∀ w w', exec (step b) events (start corpus) = some w → exec (step b) events' (start corpus) = some w' →
            ∀ query, b.search w.corpus w.store query = b.search w'.corpus w'.store query := by
  constructor
  · exact always_complete_of_faithful hsignature (fun c hc => .inr hc) (.inl rfl) (faithful_start b _) hwhole
  · intro events' hsame hwhole' hreads hreads' w w' hw hw' query
    rw [exec_eq_of_sameButFilters hsame hwhole hwhole' hreads hreads', hw'] at hw
    cases hw
    rfl

/-- One corpus at a time, and no expression that finds anything. -/
def plainBackend : ArchiveBackend Unit Unit Int := ⟨plainTexts, fun _ => (), fun query => [query], lastChat []⟩

def notesOnly : ArchiveSearchQuery := { allRecords with sources := [.dailyNote] }

theorem upkeep_complete :
    Always (step plainBackend) (Complete plainBackend) [.search allRecords, .maintain] (start (oneMessage "msg_1")) ∧
      plainBackend.search (oneMessage "msg_1") ((start (oneMessage "msg_1")).apply plainBackend (.search allRecords)).store
          allRecords =
        plainBackend.search (oneMessage "msg_1")
          ((start (oneMessage "msg_1")).apply plainBackend (.search { allRecords with limit := 8 })).store allRecords := by
  have hinj {events : List (ArchiveEvent Unit)} (h : ∀ corpus, .change corpus ∉ events) :
      Set.InjOn plainBackend.signature (corporaOf (oneMessage "msg_1") events) := by
    rintro c (rfl | hc) c' (rfl | hc') -
    · rfl
    · exact absurd hc' (h c')
    · exact absurd hc (h c)
    · exact absurd hc (h c)
  have hreads (limit : Nat) (w : ArchiveWorld Unit Unit) (hw : w.corpus = oneMessage "msg_1") :
      ReadsWell plainBackend w (.search { allRecords with limit }) :=
    ⟨⟨[oneRecord "msg_1"], hw ▸ collect_oneMessage "msg_1"⟩, [oneRecord "msg_1"], hw ▸ collect_oneMessage "msg_1",
      List.nodup_singleton _⟩
  have hwhole (limit : Nat) (w : ArchiveWorld Unit Unit) : SearchesWhole plainBackend w (.search { allRecords with limit }) :=
    fun _ => leavesNothingOut_of_unfiltered rfl rfl rfl
  refine ⟨(always_complete plainBackend (oneMessage "msg_1") [.search allRecords, .maintain] (hinj (by simp))
    fun t _ => ⟨hwhole 1 _, fun _ _ => ⟨trivial, trivial⟩⟩).1, ?_⟩
  exact (always_complete plainBackend (oneMessage "msg_1") [.search allRecords] (hinj (by simp))
    fun t _ => ⟨hwhole 1 _, trivial⟩).2 [.search { allRecords with limit := 8 }] (.cons (.search rfl) .nil)
    (fun t _ => ⟨hwhole 8 _, trivial⟩) (fun t _ => ⟨hreads 1 _ rfl, trivial⟩) (fun t _ => ⟨hreads 8 _ rfl, trivial⟩)
    _ _ rfl rfl allRecords

/-- A search for notes builds an index without the message, which has the signature of the corpus all the same. -/
theorem notes_search_incomplete :
    ¬ ∀ (D S R : Type) (_ : DecidableEq S) (_ : LinearOrder R) (b : ArchiveBackend D S R) (corpus : Corpus D)
      (events : List (ArchiveEvent D)), Set.InjOn b.signature (corporaOf corpus events) →
        Always (step b) (Complete b) events (start corpus) := by
  intro h
  have hinj : Set.InjOn plainBackend.signature (corporaOf (oneMessage "msg_1") [.search notesOnly]) := by
    rintro c (rfl | hc) c' (rfl | hc') -
    · rfl
    · simp at hc'
    · simp at hc
    · simp at hc
  have hcomplete := (h Unit Unit Int inferInstance inferInstance plainBackend (oneMessage "msg_1") [.search notesOnly] hinj).2 _ rfl
  have hids := hcomplete rfl [oneRecord "msg_1"] (collect_oneMessage "msg_1") (oneRecord "msg_1").locator.recordId
  exact absurd (hids.mpr (List.mem_singleton_self _)) List.not_mem_nil

end ArchiveWorld

end Beetle.Memory.Archive
