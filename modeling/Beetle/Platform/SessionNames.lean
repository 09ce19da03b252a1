import Beetle.Platform.CachedJson
import Beetle.Platform.SessionHistory

/-! The names of session files, and how a chat is found from the name of its file. -/
namespace Beetle.Platform.Storage
open Beetle.Lib Beetle.Memory

def isAsciiHexdigit (c : Char) : Bool :=
  c.isDigit || ('a' ≤ c && c ≤ 'f') || ('A' ≤ c && c ≤ 'F')

/-- What the first line of a file says of the chat. -/
def firstLineChatId (buf : Bytes) : Option (List Char) :=
  ((buf.splitOn lf).head?.bind fromUtf8).bind parseChatIdHeader

/-- `maxSize` is the bound on the size of a file that `read_file` reads. -/
def resolveChatIdFromSessionFilename (maxSize : Nat) (files : HashMap String Bytes) (dir name : String) :
    Option String :=
  if ¬ sessionFileExt.toList <:+ name.toList then none
  else
    let stem := trimEndMatches sessionFileExt.toList name.toList
    let unread := if stem = [] then none else some (String.ofList stem)
    if (utf8 stem).length ≠ 8 ∨ !stem.all isAsciiHexdigit then unread
    else
      match readFile maxSize (files.lookup (dir ++ "/" ++ name)) none with
      | .error _ => unread
      | .ok buf =>
        match firstLineChatId buf with
        | some chatId => some (String.ofList chatId)
        | none => unread

/-- The chat id is the name of its file. -/
def NamedLiterally (chatId : String) : Prop := (utf8 chatId.toList).length ≤ maxChatIdFilenameLen

instance (chatId : String) : Decidable (NamedLiterally chatId) :=
  inferInstanceAs (Decidable (_ ≤ _))

def sessionFilename (chatId : String) : String :=
  if NamedLiterally chatId then chatId ++ sessionFileExt
  else String.ofList (hex 8 (fnv1aHash chatId).toNat) ++ sessionFileExt

/-- The short id is the name that the hash of the long one gives. -/
def NamesHashOf (short long : String) : Prop :=
  NamedLiterally short ∧ ¬ NamedLiterally long ∧ short.toList = hex 8 (fnv1aHash long).toNat

variable {writeHeader : Bool} {chatId : String} {chatId path : String}

theorem sessionPath_eq {cfg : SessionConfig} (h : sessionPath cfg chatId = .ok (path, writeHeader)) :
    path = cfg.sessionsDir ++ "/" ++ sessionFilename chatId ∧
      writeHeader = !decide (NamedLiterally chatId) := by
  unfold sessionPath at h
  split at h
  · cases h
  · split at h
    · cases h
    · by_cases hshort : NamedLiterally chatId
      · rw [if_pos (show (utf8 chatId.toList).length ≤ maxChatIdFilenameLen from hshort)] at h
        dsimp only at h
        split at h
        · cases h
        · cases h
          simp [sessionFilename, hshort]
      · rw [if_neg (show ¬ (utf8 chatId.toList).length ≤ maxChatIdFilenameLen from hshort)] at h
        dsimp only at h
        split at h
        · cases h
        · cases h
          simp [sessionFilename, hshort]

theorem string_append_inj {a b c : String} (h : a ++ b = a ++ c) : b = c := by
  have hlist := congrArg String.toList h
  rw [String.toList_append, String.toList_append] at hlist
  exact String.toList_injective (List.append_cancel_left hlist)

theorem toList_sessionFilename (chatId : String) : (sessionFilename chatId).toList =
    (if NamedLiterally chatId then chatId.toList else hex 8 (fnv1aHash chatId).toNat) ++
      sessionFileExt.toList := by
  unfold sessionFilename
  split <;> simp

theorem fnv1aHash_lt (s : String) : (fnv1aHash s).toNat < 16 ^ 8 := (fnv1aHash s).toNat_lt

/-- Chats with different hashes share a file name just where one of them is named
by the hash of the other. -/
theorem sessionFilename_eq_iff {c d : String} (hne : c ≠ d) (hhash : fnv1aHash c ≠ fnv1aHash d) :
    sessionFilename c = sessionFilename d ↔ NamesHashOf c d ∨ NamesHashOf d c := by
  have hinj : sessionFilename c = sessionFilename d ↔
      (if NamedLiterally c then c.toList else hex 8 (fnv1aHash c).toNat) =
        if NamedLiterally d then d.toList else hex 8 (fnv1aHash d).toNat := by
    rw [← String.toList_inj, toList_sessionFilename, toList_sessionFilename, List.append_cancel_right_eq]
  rw [hinj]
  by_cases hc : NamedLiterally c <;> by_cases hd : NamedLiterally d
  · have hlist : c.toList ≠ d.toList := fun h => hne (String.toList_injective h)
    simp [hc, hd, NamesHashOf, hlist]
  · simp [hc, hd, NamesHashOf]
  · simp [hc, hd, NamesHashOf, eq_comm]
  · have hhex : hex 8 (fnv1aHash c).toNat ≠ hex 8 (fnv1aHash d).toNat := fun h =>
      hhash (UInt32.toNat_inj.mp (hex_inj (fnv1aHash_lt c) (fnv1aHash_lt d) h))
    simp [hc, hd, NamesHashOf, hhex]

/-- A file that the store has written for the chat, with at least a line in it,
starts with the header, if there is one, or with a message. -/
def Titled (writeHeader : Bool) (chatId : String) (file : Bytes) : Prop :=
  if writeHeader then chatIdHeader chatId <+: file
  else ∃ message : StoredSessionMessage, message.line ++ [lf] <+: file

theorem Titled.mono {a b : Bytes} (h : Titled writeHeader chatId a) (hab : a <+: b) : Titled writeHeader chatId b := by
  cases writeHeader with
  | true => exact List.IsPrefix.trans h hab
  | false =>
    obtain ⟨message, hmessage⟩ := h
    exact ⟨message, hmessage.trans hab⟩

theorem titled_sessionBody (writeHeader : Bool) (chatId : String) {messages : List StoredSessionMessage}
    (h : writeHeader = true ∨ messages ≠ []) : Titled writeHeader chatId (sessionBody writeHeader chatId messages) := by
  cases writeHeader with
  | true => exact List.prefix_append _ _
  | false =>
    cases messages with
    | nil => simp at h
    | cons message rest =>
      refine ⟨message, ?_⟩
      rw [show sessionBody false chatId (message :: rest) = (message.line ++ [lf]) ++
        unlines (rest.map StoredSessionMessage.line) by simp [sessionBody]]
      exact List.prefix_append _ _

/-- What the file of a chat is while the store writes it. -/
def AsWritten (writeHeader : Bool) (chatId : String) (file : Bytes) : Prop :=
  file = [] ∨ Titled writeHeader chatId file

theorem asWritten_sessionBody (writeHeader : Bool) (chatId : String) (messages : List StoredSessionMessage) :
    AsWritten writeHeader chatId (sessionBody writeHeader chatId messages) := by
  by_cases h : writeHeader = true ∨ messages ≠ []
  · exact .inr (titled_sessionBody writeHeader chatId h)
  · obtain ⟨hheader, hmessages⟩ := not_or.mp h
    exact .inl (by simp [sessionBody, hheader, not_not.mp hmessages])

theorem AsWritten.appendSessionLines {file : Option Bytes}
    (h : AsWritten writeHeader chatId (file.getD [])) (prependNewline : Bool) (stored : List StoredSessionMessage) :
    AsWritten writeHeader chatId (appendSessionLines file chatId writeHeader prependNewline
      (stored.map StoredSessionMessage.line)) := by
  by_cases hempty : file.getD [] = []
  · have hbody : Storage.appendSessionLines file chatId writeHeader prependNewline
        (stored.map StoredSessionMessage.line) = sessionBody writeHeader chatId stored := by
      simp [Storage.appendSessionLines, hempty, sessionBody]
    rw [hbody]
    exact asWritten_sessionBody writeHeader chatId stored
  · refine .inr ((h.resolve_left hempty).mono ?_)
    simp only [Storage.appendSessionLines, List.append_assoc]
    exact List.prefix_append _ _

/-- A step that leaves other chats alone and the file of this one as the store writes it. -/
structure FileStep (writeHeader : Bool) (chatId path : String) (s t : StorageSessionStore) : Prop where
  frame : Frame s t chatId path
  own : AsWritten writeHeader chatId (s.fileOf path) → AsWritten writeHeader chatId (t.fileOf path)

section
variable {cfg : SessionConfig} {writeHeader : Bool} {chatId path : String} {s t : StorageSessionStore}
  {messages : List StoredSessionMessage}

theorem FileStep.of_files (hframe : Frame s t chatId path) (h : t.files = s.files) :
    FileStep writeHeader chatId path s t := by
  have hfile : t.fileOf path = s.fileOf path := by simp [StorageSessionStore.fileOf, h]
  exact ⟨hframe, fun hs => by rwa [hfile]⟩

theorem FileStep.of_insert {file : Bytes} (hframe : Frame s t chatId path) (h : t.files = s.files.insert path file)
    (hfile : AsWritten writeHeader chatId (s.fileOf path) → AsWritten writeHeader chatId file) :
    FileStep writeHeader chatId path s t := by
  refine ⟨hframe, fun hs => ?_⟩
  have hown : t.fileOf path = file := by simp [StorageSessionStore.fileOf, h]
  rw [hown]
  exact hfile hs

theorem FileStep.trans {s t u : StorageSessionStore} (h : FileStep writeHeader chatId path s t)
    (h' : FileStep writeHeader chatId path t u) : FileStep writeHeader chatId path s u :=
  ⟨h.frame.trans h'.frame, fun hs => h'.own (h.own hs)⟩

theorem FileStep.refl (s : StorageSessionStore) : FileStep writeHeader chatId path s s :=
  .of_files (.refl s chatId path) rfl

theorem FileStep.counter (s : StorageSessionStore) (counter : Nat) :
    FileStep writeHeader chatId path s { s with messageIdCounter := counter } :=
  .of_files ⟨fun _ _ => rfl, fun _ _ => rfl, fun _ _ => .inr rfl⟩ rfl

theorem FileStep.insertCounts (s : StorageSessionStore) (state : SessionAppendState) :
    FileStep writeHeader chatId path s { s with counts := s.counts.insert chatId state } :=
  .of_files ⟨fun _ _ => rfl, fun _ hc => Finmap.lookup_insert_of_ne _ hc, fun _ _ => .inr rfl⟩ rfl

theorem FileStep.upsert (s : StorageSessionStore) (first : FirstKey) (recent : List StoredSessionMessage) :
    FileStep writeHeader chatId path s
      { s with recent := StorageSessionStore.upsertRecentCache first chatId recent s.recent } :=
  .of_files (frame_upsert s first chatId path recent) rfl

theorem mapM_sessionLine_eq {stage : String} {lines : List Bytes}
    (h : messages.mapM (sessionLine stage) = .ok lines) : lines = messages.map StoredSessionMessage.line := by
  by_cases hfits : ∀ message ∈ messages, message.line.length ≤ maxSessionMessageLen
  · rw [mapM_sessionLine_of_fits stage hfits] at h
    exact (Except.ok.inj h).symm
  · obtain ⟨text, herror⟩ := mapM_sessionLine_of_long stage hfits
    rw [herror] at h
    cases h

theorem writeSessionMessages_eq {body : Bytes}
    {state : SessionAppendState} (h : writeSessionMessages chatId writeHeader messages = .ok (body, state)) :
    body = sessionBody writeHeader chatId messages := by
  unfold writeSessionMessages at h
  split at h
  · cases h
  · rename_i lines hlines
    rw [mapM_sessionLine_eq hlines] at h
    cases h
    rfl

variable (cfg) (path chatId writeHeader)

theorem fileStep_loadSessionSnapshot (s : StorageSessionStore) (mode : SessionRepairMode) :
    FileStep writeHeader chatId path s (s.loadSessionSnapshot cfg path chatId writeHeader mode).1 := by
  unfold StorageSessionStore.loadSessionSnapshot
  dsimp only
  split
  · split
    · exact .counter s _
    · rename_i body state hwrite
      refine .of_insert ⟨fun p hp => Finmap.lookup_insert_of_ne _ hp, fun _ _ => rfl, fun _ _ => .inr rfl⟩ rfl
        fun _ => ?_
      rw [writeSessionMessages_eq hwrite]
      exact asWritten_sessionBody _ _ _
  · exact .counter s _

theorem fileStep_appendState (s : StorageSessionStore) :
    FileStep writeHeader chatId path s (s.appendState cfg path chatId writeHeader).1 := by
  unfold StorageSessionStore.appendState
  split
  · exact .refl s
  · split
    · generalize observeSessionAppendState cfg s.messageIdCounter (s.files.lookup path) = observed
      obtain ⟨state, counter⟩ := observed
      exact (FileStep.counter s counter).trans (.insertCounts _ state)
    · have hload := fileStep_loadSessionSnapshot cfg writeHeader chatId path s .deferred
      split
      · rename_i heq
        rw [heq] at hload
        exact hload
      · rename_i t snapshot heq
        rw [heq] at hload
        exact hload.trans (.insertCounts t _)

theorem fileStep_compactBase (s : StorageSessionStore) (first : FirstKey)
    (existing : Option (List StoredSessionMessage)) :
    FileStep writeHeader chatId path s (s.compactBase cfg first path chatId writeHeader existing).1 := by
  unfold StorageSessionStore.compactBase
  split
  · exact .refl s
  · split
    · exact .upsert s first _
    · have hload := fileStep_loadSessionSnapshot cfg writeHeader chatId path s .immediate
      split
      · rename_i heq
        rw [heq] at hload
        exact hload
      · rename_i t snapshot heq
        rw [heq] at hload
        exact hload.trans (.upsert t first _)

theorem fileStep_appendInPlace (s : StorageSessionStore) (state : SessionAppendState)
    (stored : List StoredSessionMessage) : FileStep writeHeader chatId path s
      (s.appendInPlace path chatId writeHeader state stored (stored.map StoredSessionMessage.line)) :=
  .of_insert (frame_appendInPlace s path chatId writeHeader state stored _) rfl
    fun hs => AsWritten.appendSessionLines hs _ stored

theorem fileStep_appendCompacting (s : StorageSessionStore) (first : FirstKey)
    (existing : Option (List StoredSessionMessage)) (newMessages : List SessionMessage) :
    FileStep writeHeader chatId path s
      (s.appendCompacting cfg first path chatId writeHeader existing newMessages).1 := by
  have hbase := fileStep_compactBase cfg writeHeader chatId path s first existing
  unfold StorageSessionStore.appendCompacting
  split
  · rename_i heq
    rw [heq] at hbase
    exact hbase
  · rename_i t base heq
    rw [heq] at hbase
    refine hbase.trans ?_
    dsimp only
    split
    · exact .counter t _
    · rename_i body state hwrite
      refine .of_insert ⟨fun p hp => Finmap.lookup_insert_of_ne _ hp, fun c hc => Finmap.lookup_insert_of_ne _ hc,
        fun c hc => lookup_upsertRecentCache_of_ne hc⟩ rfl fun _ => ?_
      rw [writeSessionMessages_eq hwrite]
      exact asWritten_sessionBody _ _ _

variable {path chatId writeHeader} (hpath : sessionPath cfg chatId = .ok (path, writeHeader))
include hpath

theorem fileStep_appendBatch (s : StorageSessionStore) (first : FirstKey) (messages : List SessionMessage) :
    FileStep writeHeader chatId path s (s.appendBatch cfg first chatId messages).1 := by
  unfold StorageSessionStore.appendBatch
  split
  · exact .refl s
  · dsimp only
    split
    · exact .counter s _
    · rename_i lines hlines
      obtain rfl := mapM_sessionLine_eq hlines
      rw [hpath]
      dsimp only
      generalize hs₁ : ({ s with messageIdCounter := s.messageIdCounter + messages.length } :
        StorageSessionStore) = s₁
      have hstate := fileStep_appendState cfg writeHeader chatId path s₁
      have hstart : FileStep writeHeader chatId path s s₁ := by
        rw [← hs₁]
        exact .counter s _
      split
      · rename_i heq
        rw [heq] at hstate
        exact hstart.trans hstate
      · rename_i s₂ state existing heq
        rw [heq] at hstate
        refine (hstart.trans hstate).trans ?_
        split
        · exact fileStep_appendInPlace writeHeader chatId path s₂ state _
        · split
          · exact fileStep_appendInPlace writeHeader chatId path s₂ state _
          · exact fileStep_appendCompacting cfg writeHeader chatId path s₂ first existing messages

theorem fileStep_messageCount (s : StorageSessionStore) :
    FileStep writeHeader chatId path s (s.messageCount cfg chatId).1 := by
  unfold StorageSessionStore.messageCount
  split
  · exact .refl s
  · rw [hpath]
    dsimp only
    have hstate := fileStep_appendState cfg writeHeader chatId path s
    split
    · rename_i heq
      rw [heq] at hstate
      exact hstate
    · rename_i heq
      rw [heq] at hstate
      exact hstate

theorem fileStep_clear (s : StorageSessionStore) :
    FileStep writeHeader chatId path s (s.clear cfg chatId).1 := by
  unfold StorageSessionStore.clear
  rw [hpath]
  refine .of_insert ⟨fun p hp => Finmap.lookup_insert_of_ne _ hp, fun c hc => Finmap.lookup_insert_of_ne _ hc,
    fun c hc => .inr (Finmap.lookup_erase_ne hc)⟩ rfl fun _ => ?_
  have hbody := asWritten_sessionBody writeHeader chatId []
  simpa [sessionBody] using hbody

omit hpath in
theorem fileStep_loadSessionTailSnapshot (s : StorageSessionStore) (limit : Nat) :
    FileStep writeHeader chatId path s (s.loadSessionTailSnapshot cfg path limit).1 :=
  .counter s _

theorem fileStep_loadRecent (s : StorageSessionStore) (first : FirstKey) (n : Nat) :
    FileStep writeHeader chatId path s (s.loadRecent cfg first chatId n).1 := by
  unfold StorageSessionStore.loadRecent
  rw [hpath]
  dsimp only
  split
  · exact .refl s
  · split
    · exact .refl s
    · have htail : FileStep writeHeader chatId path s
          (s.loadSessionTailSnapshot cfg path (min n maxSessionEntries)).1 :=
        fileStep_loadSessionTailSnapshot cfg s _
      generalize s.loadSessionTailSnapshot cfg path (min n maxSessionEntries) = tail at htail
      obtain ⟨t, snapshot⟩ := tail
      refine htail.trans ?_
      split <;> split
      · exact (FileStep.insertCounts t _).trans (.upsert _ first _)
      · exact .upsert t first _
      · exact .insertCounts t _
      · exact .refl t

theorem fileStep_loadRecentRecords (s : StorageSessionStore) (first : FirstKey) (n : Nat) :
    FileStep writeHeader chatId path s (s.loadRecentRecords cfg first chatId n).1 := by
  unfold StorageSessionStore.loadRecentRecords
  rw [hpath]
  dsimp only
  split
  · exact .refl s
  · have htail : FileStep writeHeader chatId path s
        (s.loadSessionTailSnapshot cfg path (min n maxSessionEntries)).1 :=
      fileStep_loadSessionTailSnapshot cfg s _
    generalize s.loadSessionTailSnapshot cfg path (min n maxSessionEntries) = tail at htail
    obtain ⟨t, snapshot⟩ := tail
    refine htail.trans ?_
    by_cases hkeep : min n maxSessionEntries = maxSessionEntries ∨ cfg.deferCompactOnAppend = true
    · simp only [if_pos hkeep]
      split <;> exact .upsert t first _
    · simp only [if_neg hkeep]
      split <;> exact .refl t

end

section
variable {cfg : SessionConfig} {chatId path : String} {writeHeader : Bool}
  (hpath : sessionPath cfg chatId = .ok (path, writeHeader)) {w t : SessionHistory} {call : SessionCall}
include hpath

theorem fileStep_call (hc : call.chatId = chatId)
    (h : w.call cfg call = some t) : FileStep writeHeader chatId path w.store t.store := by
  cases call with
  | appendBatch first c messages =>
    obtain rfl : c = chatId := hc
    have hstep := fileStep_appendBatch cfg hpath w.store first messages
    simp only [SessionHistory.call] at h
    split at h <;> rename_i heq <;> rw [heq] at hstep <;> cases h <;> exact hstep
  | loadRecent first c n =>
    obtain rfl : c = chatId := hc
    cases h
    exact fileStep_loadRecent cfg hpath w.store first n
  | loadRecentRecords first c n =>
    obtain rfl : c = chatId := hc
    cases h
    exact fileStep_loadRecentRecords cfg hpath w.store first n
  | messageCount c =>
    obtain rfl : c = chatId := hc
    cases h
    exact fileStep_messageCount cfg hpath w.store
  | clear c =>
    obtain rfl : c = chatId := hc
    have hstep := fileStep_clear cfg hpath w.store
    simp only [SessionHistory.call] at h
    split at h <;> rename_i heq <;> rw [heq] at hstep <;> cases h <;> exact hstep

omit hpath in
theorem fileOf_call_of_error {e : Error}
    (herror : sessionPath cfg call.chatId = .error e) (h : w.call cfg call = some t) :
    t.store.files = w.store.files := by
  cases call with
  | appendBatch first c messages =>
    simp only [SessionCall.chatId] at herror
    have hfiles : (w.store.appendBatch cfg first c messages).1.files = w.store.files := by
      unfold StorageSessionStore.appendBatch
      simp only [herror]
      split
      · rfl
      · split <;> rfl
    simp only [SessionHistory.call] at h
    split at h <;> rename_i heq <;> rw [heq] at hfiles <;> cases h <;> exact hfiles
  | loadRecent first c n =>
    simp only [SessionCall.chatId] at herror
    cases h
    simp [herror]
  | loadRecentRecords first c n =>
    simp only [SessionCall.chatId] at herror
    cases h
    simp [herror]
  | messageCount c =>
    simp only [SessionCall.chatId] at herror
    have hfiles : (w.store.messageCount cfg c).1.files = w.store.files := by
      unfold StorageSessionStore.messageCount
      simp only [herror]
      split <;> rfl
    cases h
    exact hfiles
  | clear c =>
    simp only [SessionCall.chatId] at herror
    simp only [SessionHistory.call, StorageSessionStore.clear, herror] at h
    cases h
    rfl

omit hpath in
/-- A call on a chat with another file leaves this one alone. -/
theorem fileOf_call_of_ne
    (hne : ∀ header, sessionPath cfg call.chatId ≠ .ok (path, header)) (h : w.call cfg call = some t) :
    t.store.fileOf path = w.store.fileOf path := by
  cases hcall : sessionPath cfg call.chatId with
  | error e => simp [StorageSessionStore.fileOf, fileOf_call_of_error hcall h]
  | ok named =>
    obtain ⟨q, header⟩ := named
    have hframe := (fileStep_call hcall rfl h).frame
    have hfile : t.store.files.lookup path = w.store.files.lookup path :=
      hframe.files path fun hq => hne header (by rw [hcall, hq])
    simp [StorageSessionStore.fileOf, hfile]

/-- Whatever calls are made, the file stays as the store writes it. -/
theorem asWritten_exec {calls : List SessionCall}
    (hown : ∀ call ∈ calls, call.chatId ≠ chatId → ∀ header, sessionPath cfg call.chatId ≠ .ok (path, header))
    (hw : AsWritten writeHeader chatId (w.store.fileOf path)) (h : exec (SessionHistory.call cfg) calls w = some t) :
    AsWritten writeHeader chatId (t.store.fileOf path) := by
  induction calls generalizing w with
  | nil =>
    cases h
    exact hw
  | cons call calls ih =>
    obtain ⟨u, hu, hrest⟩ := Option.bind_eq_some_iff.mp h
    obtain ⟨hcall, hcalls⟩ := List.forall_mem_cons.mp hown
    refine ih hcalls ?_ hrest
    by_cases hc : call.chatId = chatId
    · exact (fileStep_call hpath hc hu).own hw
    · rw [fileOf_call_of_ne (hcall hc) hu]
      exact hw

end

theorem ChatIdOk.trim_eq (hid : ChatIdOk chatId) : trim chatId.toList = chatId.toList := by
  obtain ⟨front, last, h, hlast⟩ := hid.exists_concat
  cases hfront : front with
  | nil => simp [trim, h, hfront, hlast]
  | cons a front =>
    have ha := hid.chars a (by simp [h, hfront])
    rw [h, hfront, trim_eq_self ha hlast]

theorem ChatIdOk.parseChatIdHeader_eq (hid : ChatIdOk chatId) :
    parseChatIdHeader (chatIdHeaderPrefix ++ chatId.toList) = some chatId.toList := by
  simp [parseChatIdHeader, hid.trim_header, isPrefixOf?_append, hid.trim_eq, hid.nonempty]

theorem firstLineChatId_append {line rest : Bytes} (h : lf ∉ line) :
    firstLineChatId (line ++ [lf] ++ rest) = (fromUtf8 line).bind parseChatIdHeader := by
  have hsplit : (line ++ lf :: rest).splitOn lf = line :: rest.splitOn lf :=
    List.splitOn_append_cons_self_of_not_mem h rest
  rw [firstLineChatId, List.append_assoc, List.singleton_append, hsplit]
  rfl

theorem firstLineChatId_literal {file : Bytes} (h : AsWritten false chatId file) : firstLineChatId file = none := by
  rcases h with rfl | ⟨message, rest, rfl⟩
  · rfl
  · rw [firstLineChatId_append message.lf_notMem_line]
    simp [StoredSessionMessage.line, StoredSessionMessage.parseChatIdHeader_toJson]

theorem firstLineChatId_header (hid : ChatIdOk chatId) {file : Bytes}
    (h : Titled true chatId file) : firstLineChatId file = some chatId.toList := by
  obtain ⟨rest, rfl⟩ := h
  rw [chatIdHeader, firstLineChatId_append hid.lf_notMem_header, fromUtf8_utf8]
  exact hid.parseChatIdHeader_eq

section
variable {maxSize : Nat} {files : HashMap String Bytes} {dir chatId : String}

/-- The file of a chat with a short id says nothing that its name does not. -/
theorem resolve_literal (hshort : NamedLiterally chatId)
    (hfile : AsWritten false chatId ((files.lookup (dir ++ "/" ++ sessionFilename chatId)).getD [])) :
    resolveChatIdFromSessionFilename maxSize files dir (sessionFilename chatId) =
      if trimEndMatches sessionFileExt.toList chatId.toList = [] then none
      else some (String.ofList (trimEndMatches sessionFileExt.toList chatId.toList)) := by
  have hname : (sessionFilename chatId).toList = chatId.toList ++ sessionFileExt.toList := by
    rw [toList_sessionFilename, if_pos hshort]
  unfold resolveChatIdFromSessionFilename
  rw [hname, if_neg (not_not.mpr (List.suffix_append _ _)), trimEndMatches_append]
  dsimp only
  split
  · rfl
  · cases hlookup : files.lookup (dir ++ "/" ++ sessionFilename chatId) with
    | none => rfl
    | some file =>
      rw [hlookup] at hfile
      have hnone : firstLineChatId file = none := firstLineChatId_literal hfile
      by_cases hlong : file.length > maxSize
      · simp [readFile, hlong]
      · simp [readFile, hlong, hnone]

theorem isAsciiHexdigit_of_mem_hex {width n : Nat} {c : Char} (h : c ∈ hex width n) :
    isAsciiHexdigit c = true ∧ c ≠ 'l' := by
  have hdigit : ∀ d < 16, isAsciiHexdigit (Nat.digitChar d) = true ∧ Nat.digitChar d ≠ 'l' := by decide
  obtain ⟨d, hd, rfl⟩ := mem_hex h
  exact hdigit d hd

theorem resolve_hashed (hid : ChatIdOk chatId) (hlong : ¬ NamedLiterally chatId)
    (hfile : Titled true chatId ((files.lookup (dir ++ "/" ++ sessionFilename chatId)).getD [])) :
    resolveChatIdFromSessionFilename maxSize files dir (sessionFilename chatId) =
      if maxSize < ((files.lookup (dir ++ "/" ++ sessionFilename chatId)).getD []).length then
        some (String.ofList (hex 8 (fnv1aHash chatId).toNat))
      else some chatId := by
  have hname : (sessionFilename chatId).toList =
      hex 8 (fnv1aHash chatId).toNat ++ sessionFileExt.toList := by
    rw [toList_sessionFilename, if_neg hlong]
  have hsuffix : ¬ sessionFileExt.toList <:+ hex 8 (fnv1aHash chatId).toNat := fun h =>
    (isAsciiHexdigit_of_mem_hex (h.subset (show 'l' ∈ sessionFileExt.toList by decide))).2 rfl
  have hhex : (hex 8 (fnv1aHash chatId).toNat).all isAsciiHexdigit = true :=
    List.all_eq_true.mpr fun c hc => (isAsciiHexdigit_of_mem_hex hc).1
  have hsome : hex 8 (fnv1aHash chatId).toNat ≠ [] := List.length_pos_iff.mp (by simp)
  unfold resolveChatIdFromSessionFilename
  rw [hname, if_neg (not_not.mpr (List.suffix_append _ _)), trimEndMatches_append,
    trimEndMatches_eq_self hsuffix]
  dsimp only
  rw [if_neg (by simp [hhex]), if_neg hsome]
  cases hlookup : files.lookup (dir ++ "/" ++ sessionFilename chatId) with
  | none =>
    rw [hlookup] at hfile
    have hempty := hfile.length_le
    simp [chatIdHeader] at hempty
  | some file =>
    rw [hlookup] at hfile
    have hfirst : firstLineChatId file = some chatId.toList := firstLineChatId_header hid hfile
    by_cases hsize : file.length > maxSize
    · simp [readFile, hsize]
    · simp [readFile, hsize, hfirst]

end

/-- A chat is found from its file: by a name that does not end like the names of
files, or by a first line that can be read. -/
def Resolvable (maxSize : Nat) (chatId : String) (file : Bytes) : Prop :=
  if NamedLiterally chatId then ¬ sessionFileExt.toList <:+ chatId.toList else file.length ≤ maxSize

theorem resolve_eq_iff {cfg : SessionConfig} {maxSize : Nat} {s : StorageSessionStore}
    (hpath : sessionPath cfg chatId = .ok (path, writeHeader))
    (hfile : AsWritten writeHeader chatId (s.fileOf path)) (hsome : s.fileOf path ≠ []) :
    resolveChatIdFromSessionFilename maxSize s.files cfg.sessionsDir (sessionFilename chatId) = some chatId ↔
      Resolvable maxSize chatId (s.fileOf path) := by
  have hid := chatIdOk_of_sessionPath hpath
  obtain ⟨rfl, rfl⟩ := sessionPath_eq hpath
  unfold Resolvable
  split
  · rename_i hshort
    have hext : sessionFileExt.toList ≠ [] := by decide
    simp only [hshort, decide_true, Bool.not_true] at hfile
    rw [resolve_literal hshort hfile, ← trimEndMatches_eq_self_iff hext]
    constructor
    · intro h
      split at h
      · cases h
      · have hlist := congrArg String.toList (Option.some.inj h)
        rwa [String.toList_ofList] at hlist
    · intro h
      rw [h, if_neg hid.nonempty, String.ofList_toList]
  · rename_i hlong
    have hheader : Titled true chatId (s.fileOf (cfg.sessionsDir ++ "/" ++ sessionFilename chatId)) := by
      simpa [hlong] using hfile.resolve_left hsome
    rw [resolve_hashed hid hlong hheader]
    have hne : String.ofList (hex 8 (fnv1aHash chatId).toNat) ≠ chatId := fun h => hlong (by
      rw [NamedLiterally, ← h, String.toList_ofList, length_utf8_hex]
      decide)
    simp [StorageSessionStore.fileOf, hne]

/-- No call in the run is on another chat that has the file of this one. -/
def OnlyWriter (cfg : SessionConfig) (chatId path : String) (calls : List SessionCall) : Prop :=
  ∀ call ∈ calls, call.chatId ≠ chatId → ∀ header, sessionPath cfg call.chatId ≠ .ok (path, header)

/-- Chats have files of their own as long as none is named like the hash of
another, and in every run the file of a chat leads back to it just where it is resolvable. -/
theorem session_files_isolated_iff (cfg : SessionConfig) (maxSize : Nat) :
    (∀ c d path path' header header', sessionPath cfg c = .ok (path, header) →
      sessionPath cfg d = .ok (path', header') → c ≠ d → fnv1aHash c ≠ fnv1aHash d →
      (path ≠ path' ↔ ¬ NamesHashOf c d ∧ ¬ NamesHashOf d c)) ∧
    ∀ c path header name, sessionPath cfg c = .ok (path, header) → path = cfg.sessionsDir ++ "/" ++ name →
      ∀ files counter log calls w, AsWritten header c ((files.lookup path).getD []) →
      OnlyWriter cfg c path calls →
      exec (SessionHistory.call cfg) calls (.open files counter log) = some w → w.store.fileOf path ≠ [] →
      (resolveChatIdFromSessionFilename maxSize w.store.files cfg.sessionsDir name = some c ↔
        Resolvable maxSize c (w.store.fileOf path)) := by
  constructor
  · intro c d path path' header header' hc hd hne hhash
    rw [(sessionPath_eq hc).1, (sessionPath_eq hd).1, ← not_or, ← sessionFilename_eq_iff hne hhash]
    refine not_congr ⟨string_append_inj, fun h => by rw [h]⟩
  · intro c path header name hpath hname files counter log calls w hfile hown hrun hsome
    have hstart : AsWritten header c ((SessionHistory.open files counter log).store.fileOf path) := hfile
    have hwritten := asWritten_exec hpath hown hstart hrun
    have hsame : name = sessionFilename c := string_append_inj (hname.symm.trans (sessionPath_eq hpath).1)
    rw [hsame]
    exact resolve_eq_iff hpath hwritten hsome

theorem long_chat_isolated :
    (sessionPath hostSessionConfig "aaaaaaaaaaaaaaaaaaaaa").toOption ≠
      (sessionPath hostSessionConfig "a").toOption ∧
    (exec (SessionHistory.call hostSessionConfig)
      [.appendBatch (fun _ => none) "aaaaaaaaaaaaaaaaaaaaa" [⟨"user", "1"⟩]] (.open ∅ 1 fun _ => [])).map
        (fun w => resolveChatIdFromSessionFilename maxWriteSizeHost w.store.files "/tmp/beetle/s"
          "271b8a78.jsonl") = some (some "aaaaaaaaaaaaaaaaaaaaa") := by
  have hlong : sessionPath hostSessionConfig "aaaaaaaaaaaaaaaaaaaaa" =
      .ok ("/tmp/beetle/s/271b8a78.jsonl", true) := by rfl
  have hshort : sessionPath hostSessionConfig "a" = .ok ("/tmp/beetle/s/a.jsonl", false) := rfl
  obtain ⟨hpaths, hresolve⟩ := session_files_isolated_iff hostSessionConfig maxWriteSizeHost
  constructor
  · rw [hlong, hshort]
    have hne := (hpaths _ _ _ _ _ _ hlong hshort (by decide) (by decide)).mpr
      ⟨fun h => absurd h.1 (by decide), fun h => absurd h.2.2 (by decide)⟩
    exact fun h => hne (congrArg Prod.fst (Option.some.inj h))
  · have hfile : (exec (SessionHistory.call hostSessionConfig)
        [.appendBatch (fun _ => none) "aaaaaaaaaaaaaaaaaaaaa" [⟨"user", "1"⟩]] (.open ∅ 1 fun _ => [])).map
          (fun w => decide (w.store.fileOf "/tmp/beetle/s/271b8a78.jsonl" ≠ [] ∧
            (w.store.fileOf "/tmp/beetle/s/271b8a78.jsonl").length ≤ maxWriteSizeHost)) = some true := by
      decide
    obtain ⟨w, hw, hfile⟩ := Option.map_eq_some_iff.mp hfile
    obtain ⟨hsome, hsize⟩ := of_decide_eq_true hfile
    have hown : OnlyWriter hostSessionConfig "aaaaaaaaaaaaaaaaaaaaa" "/tmp/beetle/s/271b8a78.jsonl"
        [.appendBatch (fun _ => none) "aaaaaaaaaaaaaaaaaaaaa" [⟨"user", "1"⟩]] := by
      simp [OnlyWriter, SessionCall.chatId]
    have hfound := hresolve _ _ _ "271b8a78.jsonl" hlong rfl _ _ _ _ w (.inl rfl) hown hw hsome
    rw [hw]
    refine congrArg some (hfound.mpr ?_)
    rwa [Resolvable, if_neg (by decide)]

/-- A short id is the name of the file of a long one, and an id that ends like a
file name is not found again. -/
theorem chat_files_confused :
    ((sessionPath hostSessionConfig "271b8a78").toOption = some ("/tmp/beetle/s/271b8a78.jsonl", false) ∧
      (sessionPath hostSessionConfig "aaaaaaaaaaaaaaaaaaaaa").toOption =
        some ("/tmp/beetle/s/271b8a78.jsonl", true) ∧
      fnv1aHash "271b8a78" ≠ fnv1aHash "aaaaaaaaaaaaaaaaaaaaa") ∧
    (exec (SessionHistory.call hostSessionConfig) [.appendBatch (fun _ => none) "a.jsonl" [⟨"user", "1"⟩]]
      (.open ∅ 1 fun _ => [])).map (fun w =>
        ((sessionPath hostSessionConfig "a.jsonl").toOption,
          resolveChatIdFromSessionFilename maxWriteSizeHost w.store.files "/tmp/beetle/s" "a.jsonl.jsonl")) =
      some (some ("/tmp/beetle/s/a.jsonl.jsonl", false), some "a") := by
  refine ⟨⟨by decide +kernel, by decide +kernel, by decide +kernel⟩, by decide +kernel⟩

end Beetle.Platform.Storage
