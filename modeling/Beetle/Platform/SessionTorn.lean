import Beetle.Lib.Trim
import Beetle.Platform.SessionLines
import Beetle.Platform.SessionStore

/-! Appends whose writes may fail, and the files with torn lines that they leave. -/
namespace Beetle.Platform.Storage
open Beetle.Lib Beetle.Memory

/-- What the environment does to the writes of one append: the write of a repair
may fail, and its own write after some bytes. -/
structure AppendFault where
  repair : Option Error
  write : Option (Nat × Error)

namespace StorageSessionStore
variable (cfg : SessionConfig)

/-- A file that is written anew is replaced only when all of it is written. -/
def loadRepairedSnapshot (s : StorageSessionStore) (path chatId : String) (writeHeader : Bool) :
    Option Error → StorageSessionStore × Except Error SessionFileSnapshot
  | none => loadSessionSnapshot cfg s path chatId writeHeader .immediate
  | some e =>
    match loadSessionSnapshot cfg s path chatId writeHeader .deferred with
    | (s, .error e) => (s, .error e)
    | (s, .ok snapshot) => if snapshot.needsRepair then (s, .error e) else (s, .ok snapshot)

/-- A write that fails leaves the bytes it has written at the end of the file. -/
def appendInPlaceFaulty (s : StorageSessionStore) (path chatId : String) (writeHeader : Bool)
    (state : SessionAppendState) (stored : List StoredSessionMessage) (lines : List Bytes) :
    Option (Nat × Error) → StorageSessionStore × Except Error Unit
  | none => (s.appendInPlace path chatId writeHeader state stored lines, .ok ())
  | some (written, e) =>
    let prependNewline := state.hasData && !state.endsWithNewline
    let old := (s.files.lookup path).getD []
    let file := appendSessionLines (s.files.lookup path) chatId writeHeader prependNewline lines
    ({ s with files := s.files.insert path (file.take (old.length + written)) }, .error e)

def compactBaseFaulty (s : StorageSessionStore) (first : FirstKey) (path chatId : String) (writeHeader : Bool)
    (existing : Option (List StoredSessionMessage)) (repair : Option Error) :
    StorageSessionStore × Except Error (List StoredSessionMessage) :=
  match s.recent.lookup chatId with
  | some recent => (s, .ok recent)
  | none =>
    match existing with
    | some loaded => ({ s with recent := upsertRecentCache first chatId loaded s.recent }, .ok loaded)
    | none =>
      match loadRepairedSnapshot cfg s path chatId writeHeader repair with
      | (s, .error e) => (s, .error e)
      | (s, .ok snapshot) =>
        ({ s with recent := upsertRecentCache first chatId snapshot.messages s.recent },
          .ok snapshot.messages)

def appendCompactingFaulty (s : StorageSessionStore) (first : FirstKey) (path chatId : String)
    (writeHeader : Bool) (existing : Option (List StoredSessionMessage))
    (newMessages : List SessionMessage) (fault : AppendFault) : StorageSessionStore × Except Error Unit :=
  match compactBaseFaulty cfg s first path chatId writeHeader existing fault.repair with
  | (s, .error e) => (s, .error e)
  | (s, .ok base) =>
    let stored := fromSessionMessages cfg.clock s.messageIdCounter newMessages
    let s := { s with messageIdCounter := s.messageIdCounter + newMessages.length }
    let messages := (base ++ stored).rtake maxSessionEntries
    match writeSessionMessages chatId writeHeader messages with
    | .error e => (s, .error e)
    | .ok (body, state) =>
      match fault.write with
      | some (_, e) => (s, .error e)
      | none =>
        ({ s with
          files := s.files.insert path body
          recent := upsertRecentCache first chatId messages s.recent
          counts := s.counts.insert chatId state }, .ok ())

/-- `append_batch` where its writes may fail. -/
def appendBatchFaulty (s : StorageSessionStore) (first : FirstKey) (chatId : String)
    (newMessages : List SessionMessage) (fault : AppendFault) : StorageSessionStore × Except Error Unit :=
  if newMessages = [] then (s, .ok ())
  else
    let stored := fromSessionMessages cfg.clock s.messageIdCounter newMessages
    let s := { s with messageIdCounter := s.messageIdCounter + newMessages.length }
    match stored.mapM (sessionLine "session_append") with
    | .error e => (s, .error e)
    | .ok lines =>
      match sessionPath cfg chatId with
      | .error e => (s, .error e)
      | .ok (path, writeHeader) =>
        match appendState cfg s path chatId writeHeader with
        | (s, .error e) => (s, .error e)
        | (s, .ok (state, existing)) =>
          if state.messageCount + newMessages.length ≤ maxSessionEntries then
            appendInPlaceFaulty s path chatId writeHeader state stored lines fault.write
          else if cfg.deferCompactOnAppend then
            appendInPlaceFaulty s path chatId writeHeader state stored lines fault.write
          else appendCompactingFaulty cfg s first path chatId writeHeader existing newMessages fault

end StorageSessionStore

/-- JSON text that is cut off is not read as a message. -/
structure SerdeJson.RefusesCut (json : SerdeJson) : Prop where
  fromStr : ∀ message : StoredSessionMessage, ∀ text, text <+: message.toJson → text ≠ message.toJson →
    json.fromStr text = none
  firstOfStream : ∀ message : StoredSessionMessage, ∀ text found, text <+: message.toJson →
    text ≠ message.toJson → json.firstOfStream text ≠ some (some found)

def Scan.add (cap : Nat) : Option StoredSessionMessage → Scan → Scan
  | none, s => s
  | some message, s => s.push cap message

/-- What a scan takes from a line: a message, or nothing. -/
def LineGives (cfg : SessionConfig) (line : Bytes) (found : Option StoredSessionMessage) : Prop :=
  ∀ cap s, ∃ first needsRepair, scanLine cfg cap s line = { Scan.add cap found s with first, needsRepair }

theorem lineGives_nil (cfg : SessionConfig) : LineGives cfg [] none :=
  fun _ s => ⟨s.first, s.needsRepair, rfl⟩

variable {cfg : SessionConfig} {message : StoredSessionMessage}

theorem LineGives.eq_none {found : Option StoredSessionMessage} (h : LineGives cfg [] found) : found = none := by
  cases found with
  | none => rfl
  | some message =>
    obtain ⟨first, needsRepair, heq⟩ := h 1 ⟨[], 0, true, false, false, 0⟩
    have hmessages := congrArg (fun s => s.messages.length) heq
    simp [scanLine, Scan.add, Scan.push] at hmessages

theorem lineGives_message (cfg : SessionConfig) (h : message.WellFormed) : LineGives cfg message.line (some message) :=
  fun cap s => ⟨false, s.needsRepair, scanLine_message h cap s⟩

/-- A header, or what was written of it, gives no message. -/
theorem lineGives_sharp (cfg : SessionConfig) {line : Bytes} {text : List Char} (h : line <+: utf8 ('#' :: text)) :
    LineGives cfg line none := by
  intro cap s
  rw [scanLine]
  split
  · exact ⟨s.first, s.needsRepair, rfl⟩
  · rename_i hsome
    split
    · exact ⟨false, true, rfl⟩
    · rename_i chars hchars
      obtain rfl := eq_utf8_of_fromUtf8 hchars
      obtain ⟨back, hback⟩ := isPrefix_of_utf8 h
      cases chars with
      | nil => exact absurd rfl hsome
      | cons a chars =>
        obtain ⟨rfl, -⟩ := List.cons_eq_cons.mp hback
        obtain ⟨rest, hrest, -⟩ := exists_trim_cons (show isWhitespace '#' = false from rfl) chars
        obtain ⟨rest', hrest', -⟩ := exists_trim_cons (show isWhitespace '#' = false from rfl) rest
        have hignored : parseJsonlLine cfg.json (nextSessionMessageId cfg.clock s.counter) ('#' :: rest) =
            .ignored := by simp [parseJsonlLine, hrest']
        simp only [hrest, hignored, reduceCtorEq, if_false]
        split
        · exact ⟨false, s.needsRepair, rfl⟩
        · exact ⟨false, s.needsRepair, rfl⟩

/-- Nor does what was written of a message that is not all there. -/
theorem lineGives_cut (hjson : cfg.json.RefusesCut)
    {line : Bytes} (h : line <+: message.line) (hne : line ≠ message.line) : LineGives cfg line none := by
  intro cap s
  rw [scanLine]
  split
  · exact ⟨s.first, s.needsRepair, rfl⟩
  · rename_i hsome
    split
    · exact ⟨false, true, rfl⟩
    · rename_i chars hchars
      obtain rfl := eq_utf8_of_fromUtf8 hchars
      have hcut : chars <+: message.toJson := isPrefix_of_utf8 h
      have hshort : chars.length < message.toJson.length := by
        refine lt_of_le_of_ne hcut.length_le fun hlength => hne ?_
        rw [hcut.eq_of_length hlength, StoredSessionMessage.line]
      obtain ⟨back, hback⟩ := hcut
      cases chars with
      | nil => exact absurd rfl hsome
      | cons a chars =>
        obtain ⟨rfl, -⟩ := List.cons_eq_cons.mp (hback.trans (List.cons_append ..))
        have hopen : isWhitespace '\x7b' = false := rfl
        obtain ⟨rest, hrest, hprefix⟩ := exists_trim_cons hopen chars
        obtain ⟨rest', hrest', hprefix'⟩ := exists_trim_cons hopen rest
        have htext : '\x7b' :: rest' <+: message.toJson := by
          refine List.IsPrefix.trans ?_ ⟨back, hback⟩
          exact (List.prefix_cons_inj _).mpr (hprefix'.trans hprefix)
        have hnot : '\x7b' :: rest' ≠ message.toJson := by
          intro heq
          have hlength := congrArg List.length heq
          have hle := (hprefix'.trans hprefix).length_le
          simp only [List.length_cons] at hlength hshort
          omega
        have hheader : parseChatIdHeader ('\x7b' :: rest) = none := by
          have hmiss : chatIdHeaderPrefix.isPrefixOf? ('\x7b' :: rest') = none := rfl
          simp [parseChatIdHeader, hrest', hmiss]
        have hparse : parseJsonlLine cfg.json (nextSessionMessageId cfg.clock s.counter) ('\x7b' :: rest) =
              .ignored ∨
            parseJsonlLine cfg.json (nextSessionMessageId cfg.clock s.counter) ('\x7b' :: rest) = .invalid := by
          have hother : ¬ ('\x7b' :: rest' = [] ∨ ('\x7b' :: rest').head? = some '#') := by simp
          unfold parseJsonlLine
          simp only [hrest', if_neg hother, hjson.fromStr message _ htext hnot]
          split
          · rename_i found hfound
            exact absurd hfound (hjson.firstOfStream message _ found htext hnot)
          · exact .inr rfl
          · exact .inl rfl
        simp only [hrest, hheader, reduceCtorEq, if_false, Option.isSome_none, Bool.and_false,
          Bool.false_eq_true]
        rcases hparse with hparse | hparse
        · rw [hparse]
          exact ⟨false, s.needsRepair, rfl⟩
        · rw [hparse]
          exact ⟨false, true, rfl⟩

/-- What a scan takes from lines. -/
inductive LinesGive (cfg : SessionConfig) : List Bytes → List StoredSessionMessage → Prop where
  | nil : LinesGive cfg [] []
  | cons {line : Bytes} {found : Option StoredSessionMessage} {lines : List Bytes}
      {messages : List StoredSessionMessage} (hlf : lf ∉ line) (hline : LineGives cfg line found)
      (hlines : LinesGive cfg lines messages) : LinesGive cfg (line :: lines) (found.toList ++ messages)

section
variable {cfg : SessionConfig} {messages : List StoredSessionMessage} {lines : List Bytes}

theorem LinesGive.append {a b : List Bytes} {m n : List StoredSessionMessage} (ha : LinesGive cfg a m)
    (hb : LinesGive cfg b n) : LinesGive cfg (a ++ b) (m ++ n) := by
  induction ha with
  | nil => exact hb
  | cons hlf hline _ ih =>
    rw [List.cons_append, List.append_assoc]
    exact .cons hlf hline ih

theorem linesGive_singleton {line : Bytes} {found : Option StoredSessionMessage} (hlf : lf ∉ line)
    (h : LineGives cfg line found) : LinesGive cfg [line] found.toList := by
  simpa using LinesGive.cons hlf h .nil

theorem linesGive_messages (h : ∀ message ∈ messages, message.WellFormed) :
    LinesGive cfg (messages.map StoredSessionMessage.line) messages := by
  induction messages with
  | nil => exact .nil
  | cons message messages ih =>
    obtain ⟨hmessage, hrest⟩ := List.forall_mem_cons.mp h
    exact .cons message.lf_notMem_line (lineGives_message cfg hmessage) (ih hrest)

theorem LinesGive.notMem (h : LinesGive cfg lines messages) : ∀ line ∈ lines, lf ∉ line := by
  induction h with
  | nil => simp
  | cons hlf _ _ ih => exact List.forall_mem_cons.mpr ⟨hlf, ih⟩

/-- The empty line after the last newline gives nothing. -/
theorem LinesGive.of_concat_nil (h : LinesGive cfg (lines ++ [[]]) messages) : LinesGive cfg lines messages := by
  induction lines generalizing messages with
  | nil =>
    cases h with
    | cons _ hline hlines =>
      cases hlines
      rw [hline.eq_none]
      exact .nil
  | cons line lines ih =>
    cases h with
    | cons hlf hline hlines => exact .cons hlf hline (ih hlines)

/-- A scan keeps the last of the messages that the lines give. -/
theorem LinesGive.messages_foldl {cap : Nat}
    (h : LinesGive cfg lines messages) (hcap : 0 < cap) (s : Scan) (hs : s.messages.length ≤ cap) :
    (lines.foldl (scanLine cfg cap) s).messages = (s.messages ++ messages).rtake cap := by
  induction h generalizing s with
  | nil => simp [rtake_of_length_le hs]
  | @cons line found lines messages _ hline _ ih =>
    obtain ⟨first, needsRepair, heq⟩ := hline cap s
    have hadd : (Scan.add cap found s).messages = (s.messages ++ found.toList).rtake cap := by
      cases found with
      | none => simp [Scan.add, rtake_of_length_le hs]
      | some message =>
        simp only [Scan.add, Scan.push, Option.toList_some, rtake_concat_of_length_le hcap hs]
    have hnext : (scanLine cfg cap s line).messages = (s.messages ++ found.toList).rtake cap := by
      rw [heq]
      exact hadd
    rw [List.foldl_cons, ih _ (by rw [hnext, length_rtake]; exact min_le_left _ _), hnext,
      rtake_rtake_append le_rfl, List.append_assoc]

end

/-- What a scan takes from a file, which may end in a torn line. -/
def FileGives (cfg : SessionConfig) (file : Bytes) (messages : List StoredSessionMessage) : Prop :=
  ∃ lines tail, file = unlines lines ++ tail ∧ LinesGive cfg (lines ++ [tail]) messages

theorem splitOn_unlines_append {lines : List Bytes} {tail : Bytes} (h : ∀ line ∈ lines ++ [tail], lf ∉ line) :
    (unlines lines ++ tail).splitOn lf = lines ++ [tail] := splitOn_flatMap_append h

theorem unfinished_unlines_append {lines : List Bytes} {tail : Bytes} (h : lf ∉ tail) :
    unfinished (unlines lines ++ tail) = decide (tail ≠ []) := by
  by_cases htail : tail = []
  · simp [htail, unfinished_unlines]
  · have hlast : (unlines lines ++ tail).getLast? ≠ some lf := by
      rw [List.getLast?_append_of_ne_nil _ htail]
      exact fun hlast => h (List.mem_of_getLast? hlast)
    have hends : endsWithNewline (unlines lines ++ tail) = false := decide_eq_false hlast
    simp [unfinished, hends, htail]

section
variable {cfg : SessionConfig} {file : Bytes} {messages : List StoredSessionMessage}

theorem FileGives.scan (h : FileGives cfg file messages) (counter : Nat) :
    (scanSessionFile cfg counter file).1.messages = messages.rtake maxSessionEntries := by
  obtain ⟨lines, tail, rfl, hgives⟩ := h
  have hpos : 0 < maxSessionEntries := by decide
  simp only [scanSessionFile, splitOn_unlines_append hgives.notMem]
  rw [hgives.messages_foldl hpos _ (by simp), List.nil_append]

theorem FileGives.eq_nil (h : FileGives cfg [] messages) : messages = [] := by
  obtain ⟨lines, tail, hfile, hgives⟩ := h
  obtain ⟨hlines, rfl⟩ := List.append_eq_nil_iff.mp hfile.symm
  cases lines with
  | nil =>
    cases hgives.of_concat_nil
    rfl
  | cons line lines => simp at hlines

/-- What is added to a file behind a newline adds the messages it gives. -/
theorem FileGives.extend (h : FileGives cfg file messages) {front : List Bytes} {tail : Bytes}
    {part : List StoredSessionMessage} (hnew : LinesGive cfg (front ++ [tail]) part) {prepend : Bool}
    (hprepend : unfinished file = true → prepend = true) :
    FileGives cfg (file ++ (if file ≠ [] ∧ prepend then [lf] else []) ++ (unlines front ++ tail))
      (messages ++ part) := by
  by_cases hempty : file = []
  · subst hempty
    rw [h.eq_nil]
    exact ⟨front, tail, by simp, hnew⟩
  · obtain ⟨lines, old, rfl, hgives⟩ := h
    by_cases hp : prepend = true
    · refine ⟨lines ++ [old] ++ front, tail, ?_, ?_⟩
      · simp [hempty, hp]
      · rw [List.append_assoc]
        exact hgives.append hnew
    · have hold : old = [] := by
        by_contra hold
        refine hp (hprepend ?_)
        rw [unfinished_unlines_append (hgives.notMem old (by simp))]
        simp [hold]
      subst hold
      refine ⟨lines ++ front, tail, by simp [hp], ?_⟩
      rw [List.append_assoc]
      exact hgives.of_concat_nil.append hnew

end

section
variable {cfg : SessionConfig} (hjson : cfg.json.RefusesCut) {stored : List StoredSessionMessage}
  (hwf : ∀ message ∈ stored, message.WellFormed)
include hwf

/-- The lines of an append that was not cut. -/
theorem linesGive_whole {chatId : String} (hid : ChatIdOk chatId) (writeHeader : Bool) :
    LinesGive cfg (headerLines writeHeader chatId ++ stored.map StoredSessionMessage.line ++ [[]]) stored := by
  have hlines : LinesGive cfg (stored.map StoredSessionMessage.line ++ [[]]) (stored ++ []) :=
    (linesGive_messages hwf).append (linesGive_singleton (by simp) (lineGives_nil cfg))
  rw [List.append_nil] at hlines
  cases writeHeader with
  | false => exact hlines
  | true =>
    have hheader : LineGives cfg (utf8 (chatIdHeaderPrefix ++ chatId.toList)) none :=
      lineGives_sharp cfg List.prefix_rfl
    exact LinesGive.cons hid.lf_notMem_header hheader hlines

include hjson

theorem linesGive_cut_messages {front back : List Bytes} {tail : Bytes}
    (hsplit : stored.map StoredSessionMessage.line = front ++ back)
    (htail : tail = [] ∨ ∃ line rest, back = line :: rest ∧ tail <+: line) :
    ∃ part, part <+: stored ∧ LinesGive cfg (front ++ [tail]) part := by
  obtain ⟨done, left, rfl, rfl, rfl⟩ := List.map_eq_append_iff.mp hsplit
  have hdone : LinesGive cfg (done.map StoredSessionMessage.line) done :=
    linesGive_messages fun message hm => hwf message (List.mem_append_left _ hm)
  have hnone (hlf : lf ∉ tail) (hgives : LineGives cfg tail none) : ∃ part, part <+: done ++ left ∧
      LinesGive cfg (done.map StoredSessionMessage.line ++ [tail]) part := by
    refine ⟨done, List.prefix_append _ _, ?_⟩
    simpa using hdone.append (linesGive_singleton hlf hgives)
  rcases htail with rfl | ⟨line, rest, hleft, htail⟩
  · exact hnone (by simp) (lineGives_nil cfg)
  · obtain ⟨message, left, rfl, rfl, -⟩ := List.map_eq_cons_iff.mp hleft
    have hlf : lf ∉ tail := fun h => message.lf_notMem_line (htail.subset h)
    by_cases hwhole : tail = message.line
    · subst hwhole
      refine ⟨done ++ [message], ⟨left, by simp⟩, ?_⟩
      exact hdone.append (linesGive_singleton hlf (lineGives_message cfg (hwf message (by simp))))
    · exact hnone hlf (lineGives_cut hjson htail hwhole)

/-- What was written of an append that failed: some of its messages, and a torn line. -/
theorem linesGive_torn {chatId : String} (hid : ChatIdOk chatId) (writeHeader : Bool) {p : Bytes}
    (h : p <+: unlines (headerLines writeHeader chatId ++ stored.map StoredSessionMessage.line)) :
    ∃ front tail part, p = unlines front ++ tail ∧ part <+: stored ∧ LinesGive cfg (front ++ [tail]) part := by
  obtain ⟨front, tail, back, hsplit, rfl, htail⟩ := isPrefix_unlines h
  refine ⟨front, tail, ?_⟩
  cases writeHeader with
  | false =>
    obtain ⟨part, hpart, hgives⟩ := linesGive_cut_messages hjson hwf hsplit htail
    exact ⟨part, rfl, hpart, hgives⟩
  | true =>
    cases front with
    | nil =>
      -- the header itself is torn, or nothing was written
      have hheader : tail <+: utf8 (chatIdHeaderPrefix ++ chatId.toList) := by
        rcases htail with rfl | ⟨line, rest, rfl, htail⟩
        · exact List.nil_prefix
        · rwa [← (List.cons_eq_cons.mp hsplit).1] at htail
      refine ⟨[], rfl, List.nil_prefix, ?_⟩
      exact linesGive_singleton (fun h => hid.lf_notMem_header (hheader.subset h)) (lineGives_sharp cfg hheader)
    | cons line front =>
      obtain ⟨rfl, hrest⟩ := List.cons_eq_cons.mp hsplit
      obtain ⟨part, hpart, hgives⟩ := linesGive_cut_messages hjson hwf hrest htail
      have hheader : LineGives cfg (utf8 (chatIdHeaderPrefix ++ chatId.toList)) none :=
      lineGives_sharp cfg List.prefix_rfl
      exact ⟨part, rfl, hpart, LinesGive.cons hid.lf_notMem_header hheader hgives⟩

end

theorem appendSessionLines_eq (file : Option Bytes) (chatId : String) (writeHeader prepend : Bool)
    (lines : List Bytes) : appendSessionLines file chatId writeHeader prepend lines =
      file.getD [] ++ (if file.getD [] ≠ [] ∧ prepend then [lf] else []) ++
        unlines (headerLines (decide (file.getD [] = []) && writeHeader) chatId ++ lines) := by
  by_cases hempty : file.getD [] = []
  · cases writeHeader <;> simp [appendSessionLines, hempty, headerLines, chatIdHeader]
  · simp [appendSessionLines, hempty, headerLines]

section
variable {cfg : SessionConfig} {chatId : String} (hid : ChatIdOk chatId) {file : Option Bytes}
  {messages stored : List StoredSessionMessage} (h : FileGives cfg (file.getD []) messages)
  (hwf : ∀ message ∈ stored, message.WellFormed) {prepend : Bool}
  (hprepend : unfinished (file.getD []) = true → prepend = true) (writeHeader : Bool)
include hid h hwf hprepend

theorem FileGives.appendSessionLines : FileGives cfg
    (appendSessionLines file chatId writeHeader prepend (stored.map StoredSessionMessage.line))
    (messages ++ stored) := by
  have hgives := h.extend (linesGive_whole hwf hid (decide (file.getD [] = []) && writeHeader)) hprepend
  rw [appendSessionLines_eq]
  rwa [List.append_nil] at hgives

theorem FileGives.torn (hjson : cfg.json.RefusesCut) (written : Nat) : ∃ part, part <+: stored ∧
    FileGives cfg ((Storage.appendSessionLines file chatId writeHeader prepend
      (stored.map StoredSessionMessage.line)).take ((file.getD []).length + written)) (messages ++ part) := by
  rw [appendSessionLines_eq, List.append_assoc, List.take_length_add_append]
  have hcut (n : Nat) := linesGive_torn hjson hwf hid (decide (file.getD [] = []) && writeHeader)
    (List.take_prefix n (unlines (headerLines (decide (file.getD [] = []) && writeHeader) chatId ++
      stored.map StoredSessionMessage.line)))
  by_cases hnewline : file.getD [] ≠ [] ∧ prepend = true
  · rw [if_pos hnewline, List.singleton_append]
    cases written with
    | zero => exact ⟨[], List.nil_prefix, by simpa using h⟩
    | succ written =>
      obtain ⟨front, tail, part, hp, hpart, hlines⟩ := hcut written
      have hgives := h.extend hlines hprepend
      rw [if_pos hnewline, List.append_assoc, List.singleton_append] at hgives
      exact ⟨part, hpart, by rwa [List.take_succ_cons, hp]⟩
  · rw [if_neg hnewline, List.nil_append]
    obtain ⟨front, tail, part, hp, hpart, hlines⟩ := hcut written
    have hgives := h.extend hlines hprepend
    rw [if_neg hnewline, List.append_nil] at hgives
    exact ⟨part, hpart, by rwa [hp]⟩

end

theorem fileGives_sessionBody {chatId : String} (hid : ChatIdOk chatId) (writeHeader : Bool)
    {messages : List StoredSessionMessage} (hwf : ∀ message ∈ messages, message.WellFormed) :
    FileGives cfg (sessionBody writeHeader chatId messages) messages :=
  ⟨_, [], by rw [sessionBody_eq_unlines, List.append_nil], linesGive_whole hwf hid writeHeader⟩

end Beetle.Platform.Storage
