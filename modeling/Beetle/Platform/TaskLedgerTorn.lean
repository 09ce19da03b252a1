import Beetle.Lib.JsonCut
import Beetle.Platform.TaskLedger

/-! What a ledger holds after appends of which any may have failed. -/
namespace Beetle.Platform.Storage
open Beetle.Lib

/-! The text of an entry. -/

namespace TaskExecutionLedgerEntry

variable (entry : TaskExecutionLedgerEntry)

theorem printed_toJson : entry.toJson.Printed :=
  ⟨rfl, isNumber_decimal _, rfl, rfl, rfl, rfl, rfl, rfl, rfl, rfl, rfl, rfl, rfl, isNumber_decimal _, trivial⟩

theorem asU32_decimal (n : UInt32) : asU32 (.num (decimal n.toNat)) = some n := by
  have hlt : n.toNat < 2 ^ 32 := n.toNat_lt
  rw [asU32, asU64_decimal (by omega), Option.bind_some, if_pos hlt, UInt32.ofNat_toNat]

theorem ofJson_toJson : ofJson entry.toJson = some entry := by
  have hkindName : asVariant TaskLedgerKind.name kinds (jsonText entry.kind.name) = some entry.kind := by
    cases entry.kind <;> decide
  have hstatusName : asVariant TaskRunStatus.name statuses (jsonText entry.runStatus.name) = some entry.runStatus := by
    cases entry.runStatus <;> decide
  have hsequence : Json.requiredField asU32 entry.members "sequence" = some entry.sequence := asU32_decimal entry.sequence
  have hrunId : Json.requiredField Json.asString entry.members "run_id" = some entry.runId := rfl
  have hstepId : Json.defaultField Json.asString [] entry.members "step_id" = some entry.stepId := rfl
  have hkind : Json.requiredField (asVariant TaskLedgerKind.name kinds) entry.members "kind" = some entry.kind := hkindName
  have hstatus : Json.requiredField (asVariant TaskRunStatus.name statuses) entry.members "run_status" =
      some entry.runStatus := hstatusName
  have hmessage : Json.defaultField Json.asString [] entry.members "message" = some entry.message := rfl
  have hrecordedAt : Json.defaultField Json.asU64 0 entry.members "recorded_at" = some entry.recordedAt.toNat :=
    asU64_decimal entry.recordedAt.toNat_lt
  rw [ofJson, toJson, Json.asObj, hsequence, hrunId, hstepId, hkind, hstatus, hmessage, hrecordedAt]
  simp only [Option.bind_eq_bind, Option.bind_some, UInt64.ofNat_toNat]
  rfl

theorem json_text : Json.fromStr 127 entry.text = some entry.toJson := by
  have hdepth : entry.toJson.depth = 1 := rfl
  have hread : Json.fromStr 127 ([] ++ (Json.print .compact 0 entry.toJson ++ [])) = some entry.toJson :=
    Json.fromStr_print .compact entry.printed_toJson (by rw [hdepth]; decide) 0 nofun nofun
  rwa [List.nil_append, List.append_nil] at hread

theorem fromStr_text : fromStr entry.text = some entry := by
  rw [fromStr, entry.json_text]
  exact entry.ofJson_toJson

/-- Its text is in braces, and all of it is printable. -/
theorem text_eq : ∃ body, entry.text = '\x7b' :: body ++ ['\x7d'] ∧ ∀ c ∈ entry.text, 32 ≤ c.toNat :=
  ⟨Json.printMembers .compact 1 entry.members, rfl, fun _ hc => Json.plain_of_mem_print _ entry.printed_toJson hc⟩

theorem newline_notMem_text : '\n' ∉ entry.text ∧ '\r' ∉ entry.text := by
  obtain ⟨-, -, hplain⟩ := entry.text_eq
  exact ⟨fun h => absurd (hplain _ h) (by decide), fun h => absurd (hplain _ h) (by decide)⟩

theorem trim_text : trim entry.text = entry.text := by
  obtain ⟨body, htext, -⟩ := entry.text_eq
  rw [htext]
  exact trim_eq_self (by decide) (by decide)

/-- What is cut off is not read as an entry, nor does it count as blank. -/
theorem fromStr_trim_cut {entry : TaskExecutionLedgerEntry} {cut : List Char} (hne : cut ≠ []) (hcut : cut <+: entry.text)
    (hshort : cut ≠ entry.text) : trim cut ≠ [] ∧ fromStr (trim cut) = none := by
  obtain ⟨body, htext, -⟩ := entry.text_eq
  obtain ⟨back, hback⟩ := hcut
  cases cut with
  | nil => exact absurd rfl hne
  | cons c cut =>
    obtain ⟨rfl, hbody⟩ := List.cons.inj ((List.cons_append.symm.trans hback).trans htext)
    obtain ⟨rest, htrim, after, hafter⟩ := exists_trim_cons (show isWhitespace '\x7b' = false from rfl) cut
    have hback' : back ≠ [] := by
      rintro rfl
      exact hshort (by rw [← hback, List.append_nil])
    have hlast : '\x7d' ∈ back := by
      have hend := congrArg List.getLast? (hback.trans htext)
      rw [List.getLast?_append_of_ne_nil _ hback', List.getLast?_concat] at hend
      exact List.mem_of_getLast? hend
    have hjson : Json.fromStr 127 ('\x7b' :: rest ++ (after ++ back)) = some entry.toJson := by
      have hsplit : '\x7b' :: rest ++ (after ++ back) = entry.text := by
        rw [← hback, ← hafter, List.cons_append, List.cons_append, List.append_assoc]
      rw [hsplit, entry.json_text]
    rw [htrim]
    refine ⟨List.cons_ne_nil _ _, ?_⟩
    have hnone := Json.fromStr_eq_none_of_cut hjson fun hspace => by
      have hall := List.dropWhile_eq_nil_iff.mp hspace '\x7d' (List.mem_append_right after hlast)
      exact absurd hall (by decide)
    rw [fromStr, hnone]
    rfl

end TaskExecutionLedgerEntry

/-! Texts of lines. -/

theorem exists_of_utf8_eq {cs : List Char} {a b : Bytes} (h : utf8 cs = a ++ lf :: b) (ha : lf ∉ a) :
    ∃ front back, utf8 front = a ∧ utf8 back = b := by
  induction cs generalizing a with
  | nil =>
    have hlength := congrArg List.length h
    rw [List.length_append, List.length_cons, utf8_nil, List.length_nil] at hlength
    omega
  | cons c cs ih =>
    rw [utf8_cons] at h
    by_cases hc : c = '\n'
    · subst hc
      cases a with
      | nil => exact ⟨[], cs, rfl, (List.cons.inj h).2⟩
      | cons byte a =>
        obtain rfl : lf = byte := (List.cons.inj h).1
        exact absurd List.mem_cons_self ha
    · have hlf : lf ∉ String.utf8EncodeChar c := by
        refine ascii_notMem_utf8EncodeChar (by decide) fun heq => hc ?_
        exact Char.ext (UInt32.toNat_inj.mp heq)
      rcases List.append_eq_append_iff.mp h with ⟨a', rfl, hrest⟩ | ⟨b', hencode, hrest⟩
      · obtain ⟨front, back, rfl, rfl⟩ := ih hrest fun hmem => ha (List.mem_append_right _ hmem)
        exact ⟨c :: front, back, utf8_cons c front, rfl⟩
      · cases b' with
        | nil =>
          rw [List.append_nil] at hencode
          obtain ⟨front, back, hfront, rfl⟩ := ih (a := []) hrest.symm List.not_mem_nil
          refine ⟨[c], back, ?_, rfl⟩
          rw [utf8_cons, utf8_nil, List.append_nil, hencode]
        | cons byte b' =>
          obtain rfl : byte = lf := (List.cons.inj hrest).1.symm
          rw [hencode] at hlf
          exact absurd (List.mem_append_right a List.mem_cons_self) hlf

variable {lines : List Bytes} {file : Bytes} {texts : List (List Char)}

/-- Lines are all text if the file is. -/
theorem exists_texts {tail : Bytes} {cs : List Char} (h : utf8 cs = unlines lines ++ tail)
    (hlf : ∀ line ∈ lines, lf ∉ line) : ∃ (texts : List (List Char)) (last : List Char),
      lines = texts.map utf8 ∧ tail = utf8 last := by
  induction lines generalizing cs with
  | nil => exact ⟨[], cs, rfl, h.symm⟩
  | cons line lines ih =>
    obtain ⟨hline, hlines⟩ := List.forall_mem_cons.mp hlf
    rw [unlines_cons, List.append_assoc, List.cons_append] at h
    obtain ⟨front, back, rfl, hback⟩ := exists_of_utf8_eq h hline
    obtain ⟨texts, last, rfl, rfl⟩ := ih hback hlines
    exact ⟨front :: texts, last, rfl, rfl⟩

theorem utf8_flatMap_newline (texts : List (List Char)) :
    utf8 (texts.flatMap (· ++ ['\n'])) = unlines (texts.map utf8) := by
  induction texts with
  | nil => rfl
  | cons text texts ih =>
    rw [List.flatMap_cons, utf8_append, ih, utf8_append, List.map_cons, unlines_cons, List.append_assoc]
    rfl

theorem textLines_eq {last : List Char} (h : ∀ text ∈ texts ++ [last], '\n' ∉ text)
    (hcr : ∀ text ∈ texts, '\r' ∉ text) :
    textLines (texts.flatMap (· ++ ['\n']) ++ last) = texts ++ [last].filter (· ≠ []) := by
  have hmap : texts.map (fun line => if line.getLast? = some '\r' then line.dropLast else line) = texts := by
    rw [List.map_congr_left (g := id), List.map_id]
    intro text htext
    exact if_neg fun hlast => hcr text htext (List.mem_of_getLast? hlast)
  unfold textLines
  rw [splitOn_flatMap_append h]
  dsimp only
  rw [List.dropLast_concat, hmap, List.getLast?_concat]
  rfl

/-! Files of lines, of which the last may not be finished. -/

def HoldsLines (file : Bytes) (lines : List Bytes) : Prop :=
  file = unlines lines ∨ ∃ front last, lines = front ++ [last] ∧ last ≠ [] ∧ file = unlines front ++ last

theorem separator_unlines (lines : List Bytes) : separator (unlines lines) = [] := by
  by_cases hlines : lines = []
  · rw [hlines]
    rfl
  · rw [separator, if_neg]
    exact fun h => h.2 (getLast?_unlines hlines)

theorem separator_unfinished {front : List Bytes} {last : Bytes} (hne : last ≠ []) (hlf : lf ∉ last) :
    separator (unlines front ++ last) = [lf] := by
  rw [separator, if_pos]
  refine ⟨List.append_ne_nil_of_right_ne_nil _ hne, fun hlast => hlf ?_⟩
  rw [List.getLast?_append_of_ne_nil _ hne] at hlast
  exact List.mem_of_getLast? hlast

theorem holdsLines_take (lines : List Bytes) {line : Bytes} (hne : line ≠ []) (n : Nat) :
    HoldsLines (unlines lines ++ (line ++ [lf]).take n) (lines ++ [line.take n].filter (· ≠ [])) := by
  by_cases hn : n ≤ line.length
  · rw [List.take_append_of_le_length hn]
    by_cases htake : line.take n = []
    · rw [htake, List.append_nil]
      exact .inl (by simp)
    · exact .inr ⟨lines, line.take n, by simp [htake], htake, rfl⟩
  · have hwhole : line.take n = line := List.take_of_length_le (by omega)
    rw [List.take_of_length_le (by rw [List.length_append, List.length_singleton]; omega), hwhole]
    exact .inl (by simp [hne])

/-- However much of an append gets written, the file holds one line more at most. -/
theorem HoldsLines.write (h : HoldsLines file lines) (hlf : ∀ line ∈ lines, lf ∉ line)
    {line : Bytes} (hne : line ≠ []) (n : Nat) :
    HoldsLines (file ++ (appended file line).take n)
      (lines ++ [line.take (n - (separator file).length)].filter (· ≠ [])) := by
  unfold appended
  rcases h with rfl | ⟨front, last, rfl, hlast, rfl⟩
  · rw [separator_unlines, List.nil_append, List.length_nil, Nat.sub_zero]
    exact holdsLines_take lines hne n
  · rw [separator_unfinished hlast (hlf last (by simp)), List.singleton_append, List.length_singleton]
    cases n with
    | zero => exact .inr ⟨front, last, by simp, hlast, by simp⟩
    | succ n =>
      have hclosed := holdsLines_take (front ++ [last]) hne n
      rw [unlines_append, unlines_cons, unlines_nil] at hclosed
      rwa [List.take_succ_cons, Nat.add_sub_cancel, List.append_assoc, ← List.singleton_append, ← List.append_assoc last,
        ← List.append_assoc]

theorem HoldsLines.eq_nil (h : HoldsLines [] lines) : lines = [] := by
  rcases h with h | ⟨front, last, rfl, hlast, h⟩
  · cases lines with
    | nil => rfl
    | cons line lines =>
      rw [unlines_cons] at h
      exact absurd h.symm (List.append_ne_nil_of_right_ne_nil _ (List.cons_ne_nil _ _))
  · exact absurd (List.append_eq_nil_iff.mp h.symm).2 hlast

/-- The lines are read from the file as they are, if all of them are text. -/
theorem HoldsLines.textLines (h : HoldsLines file (texts.map utf8))
    (hplain : ∀ text ∈ texts, '\n' ∉ text ∧ '\r' ∉ text) :
    ∃ content, fromUtf8 file = some content ∧ Storage.textLines content = texts := by
  rcases h with rfl | ⟨front, last, hlines, hlast, rfl⟩
  · refine ⟨texts.flatMap (· ++ ['\n']), ?_, ?_⟩
    · rw [← utf8_flatMap_newline, fromUtf8_utf8]
    · have hall : ∀ text ∈ texts ++ [[]], '\n' ∉ text := by
        intro text htext
        rcases List.mem_append.mp htext with htext | htext
        · exact (hplain text htext).1
        · rw [List.mem_singleton.mp htext]
          exact List.not_mem_nil
      have hread := textLines_eq hall fun text htext => (hplain text htext).2
      rw [List.append_nil] at hread
      rw [hread]
      simp
  · obtain ⟨texts, back, rfl, rfl, hback⟩ := List.map_eq_append_iff.mp hlines
    obtain ⟨text, rfl, rfl⟩ := List.map_eq_singleton_iff.mp hback
    refine ⟨texts.flatMap (· ++ ['\n']) ++ text, ?_, ?_⟩
    · rw [← utf8_flatMap_newline, ← utf8_append, fromUtf8_utf8]
    · have htext : text ≠ [] := by
        rintro rfl
        exact hlast rfl
      rw [textLines_eq (fun text htext => (hplain text htext).1)
        fun text htext => (hplain text (List.mem_append_left _ htext)).2]
      simp [htext]

/-- If the file is text, so are the lines. -/
theorem HoldsLines.exists_texts {content : List Char} (h : HoldsLines file lines)
    (hlf : ∀ line ∈ lines, lf ∉ line) (hcontent : fromUtf8 file = some content) :
    ∃ texts : List (List Char), lines = texts.map utf8 := by
  have hfile := eq_utf8_of_fromUtf8 hcontent
  rcases h with rfl | ⟨front, last, rfl, -, rfl⟩
  · rw [← List.append_nil (unlines lines)] at hfile
    obtain ⟨texts, -, htexts, -⟩ := Storage.exists_texts hfile.symm hlf
    exact ⟨texts, htexts⟩
  · obtain ⟨texts, text, rfl, rfl⟩ := Storage.exists_texts hfile.symm fun line hline => hlf line (List.mem_append_left _ hline)
    exact ⟨texts ++ [text], by rw [List.map_append]; rfl⟩

/-! Runs. -/

/-- What an append has left in the file: its line, or what was written of it. -/
structure Part where
  entry : TaskExecutionLedgerEntry
  bytes : Bytes
  nonempty : bytes ≠ []
  isPrefix : bytes <+: entry.line

def Part.Whole (part : Part) : Prop := part.bytes = part.entry.line

/-- The appends so far: the file, the entries of the appends that returned `Ok`, and what is in the file of all. -/
structure LedgerRun where
  disk : Option Bytes
  stored : List TaskExecutionLedgerEntry
  parts : List Part

namespace StorageTaskExecutionLedgerStore
variable (store : StorageTaskExecutionLedgerStore)

/-- How many bytes of its line an append writes. -/
def written (file : Bytes) (entry : TaskExecutionLedgerEntry) (fault : Option LineFault) : Nat :=
  if store.maxWriteSize < entry.line.length + 2 then 0
  else
    match fault with
    | none => entry.line.length
    | some (.before _) => 0
    | some (.within n _) => n - (separator file).length

def parts (file : Bytes) (entry : TaskExecutionLedgerEntry) (fault : Option LineFault) : List Part :=
  if h : entry.line.take (store.written file entry fault) = [] then []
  else [⟨entry, entry.line.take (store.written file entry fault), h, List.take_prefix _ _⟩]

def stepRun (run : LedgerRun) (entry : TaskExecutionLedgerEntry) (fault : Option LineFault) : LedgerRun where
  disk := (store.append run.disk entry fault).1
  stored := if (store.append run.disk entry fault).2.isOk then run.stored ++ [entry] else run.stored
  parts := run.parts ++ store.parts (run.disk.getD []) entry fault

def runAppends (appends : List (TaskExecutionLedgerEntry × Option LineFault)) : LedgerRun :=
  appends.foldl (fun run append => store.stepRun run append.1 append.2) ⟨none, [], []⟩

end StorageTaskExecutionLedgerStore

theorem TaskExecutionLedgerEntry.line_ne_nil (entry : TaskExecutionLedgerEntry) : entry.line ≠ [] := by
  intro hline
  obtain ⟨body, htext, -⟩ := entry.text_eq
  have hlength := length_le_utf8 entry.text
  rw [← line, hline, htext, List.length_append] at hlength
  exact absurd hlength (Nat.not_succ_le_zero _)

theorem Part.lf_notMem (part : Part) : lf ∉ part.bytes := fun h =>
  lf_notMem_utf8 part.entry.newline_notMem_text.1 (part.isPrefix.subset h)

def LedgerRun.Holds (run : LedgerRun) : Prop := HoldsLines (run.disk.getD []) (run.parts.map Part.bytes)

theorem lf_notMem_parts (parts : List Part) : ∀ line ∈ parts.map Part.bytes, lf ∉ line := by
  intro line hline
  obtain ⟨part, -, rfl⟩ := List.mem_map.mp hline
  exact part.lf_notMem

namespace StorageTaskExecutionLedgerStore
variable {store : StorageTaskExecutionLedgerStore} {parts : List Part} {texts : List (List Char)}

theorem map_bytes_parts (file : Bytes) (entry : TaskExecutionLedgerEntry) (fault : Option LineFault) :
    (store.parts file entry fault).map Part.bytes = [entry.line.take (store.written file entry fault)].filter (· ≠ []) := by
  unfold parts
  split
  · rename_i h
    rw [h]
    rfl
  · rename_i h
    simp [h]

theorem append_disk (disk : Option Bytes) (entry : TaskExecutionLedgerEntry) (fault : Option LineFault) :
    (store.append disk entry fault).1 = (appendLineFile store.maxWriteSize disk entry.line fault).1 := rfl

/-- One append, whether it fails or not. -/
theorem holds_stepRun {run : LedgerRun} (h : run.Holds) (entry : TaskExecutionLedgerEntry) (fault : Option LineFault) :
    (store.stepRun run entry fault).Holds := by
  have hwrite (n : Nat) := HoldsLines.write h (lf_notMem_parts run.parts) entry.line_ne_nil n
  unfold LedgerRun.Holds stepRun
  dsimp only
  rw [List.map_append, map_bytes_parts, append_disk]
  unfold appendLineFile written
  split
  · rw [List.take_zero, List.filter_cons_of_neg (by simp), List.filter_nil, List.append_nil]
    exact h
  · cases fault with
    | none =>
      have hall := hwrite (appended (run.disk.getD []) entry.line).length
      rw [List.take_length, appended, List.length_append, Nat.add_sub_cancel_left,
        List.take_of_length_le (by simp)] at hall
      rw [List.take_length]
      exact hall
    | some fault =>
      cases fault with
      | before e =>
        dsimp only
        rw [List.take_zero, List.filter_cons_of_neg (by simp), List.filter_nil, List.append_nil]
        exact h
      | within n e => exact hwrite n

theorem holds_runAppends (appends : List (TaskExecutionLedgerEntry × Option LineFault)) :
    (store.runAppends appends).Holds := by
  have hrun (run : LedgerRun) (h : run.Holds) :
      (appends.foldl (fun run append => store.stepRun run append.1 append.2) run).Holds := by
    induction appends generalizing run with
    | nil => exact h
    | cons append appends ih => exact ih _ (holds_stepRun h append.1 append.2)
  exact hrun ⟨none, [], []⟩ (.inl rfl)

/-! What is listed. -/

theorem entries_ok_iff (h : parts.map Part.bytes = texts.map utf8) (out : List TaskExecutionLedgerEntry) :
    store.entries texts = .ok out ↔ (∀ part ∈ parts, part.Whole) ∧ out = parts.map Part.entry := by
  induction parts generalizing texts out with
  | nil =>
    obtain rfl := List.map_eq_nil_iff.mp h.symm
    exact ⟨fun h => ⟨List.forall_mem_nil _, (Except.ok.inj h).symm⟩, fun h => by rw [h.2]; rfl⟩
  | cons part parts ih =>
    obtain ⟨text, texts, rfl, hpart, hparts⟩ := List.map_eq_cons_iff.mp h.symm
    have hprefix : text <+: part.entry.text := isPrefix_of_utf8 (hpart ▸ part.isPrefix)
    have hne : text ≠ [] := by
      rintro rfl
      exact part.nonempty hpart.symm
    rw [entries]
    by_cases hwhole : text = part.entry.text
    · have hbytes : part.Whole := by rw [Part.Whole, ← hpart, hwhole, TaskExecutionLedgerEntry.line]
      rw [hwhole, part.entry.trim_text, if_neg (hwhole ▸ hne), part.entry.fromStr_text, List.forall_mem_cons]
      dsimp only
      rcases hrest : store.entries texts with e | rest
      · refine ⟨fun h => (nomatch h), fun h => ?_⟩
        have hok := (ih hparts.symm _).mpr ⟨h.1.2, rfl⟩
        rw [hrest] at hok
        cases hok
      · obtain ⟨hall, rfl⟩ := (ih hparts.symm rest).mp hrest
        exact ⟨fun h => ⟨⟨hbytes, hall⟩, (Except.ok.inj h).symm⟩, fun h => by rw [h.2]; rfl⟩
    · obtain ⟨hblank, hnone⟩ := TaskExecutionLedgerEntry.fromStr_trim_cut hne hprefix hwhole
      rw [if_neg hblank, hnone]
      refine ⟨fun h => (nomatch h), fun h => absurd ?_ hwhole⟩
      have hbytes : part.bytes = part.entry.line := h.1 part List.mem_cons_self
      have hread := congrArg fromUtf8 (hpart.trans hbytes)
      rw [TaskExecutionLedgerEntry.line, fromUtf8_utf8, fromUtf8_utf8] at hread
      exact Option.some.inj hread

theorem exists_texts_of_isSome (h : ∀ part ∈ parts, (fromUtf8 part.bytes).isSome) :
    ∃ texts : List (List Char), parts.map Part.bytes = texts.map utf8 := by
  refine ⟨parts.map fun part => (fromUtf8 part.bytes).getD [], ?_⟩
  rw [List.map_map]
  apply List.map_congr_left
  intro part hpart
  obtain ⟨text, htext⟩ := Option.isSome_iff_exists.mp (h part hpart)
  rw [Function.comp_apply, htext]
  exact eq_utf8_of_fromUtf8 htext

section
variable (h : parts.map Part.bytes = texts.map utf8)
include h

theorem isSome_of_texts : ∀ part ∈ parts, (fromUtf8 part.bytes).isSome := by
  intro part hpart
  have hmem : part.bytes ∈ texts.map utf8 := h ▸ List.mem_map_of_mem hpart
  obtain ⟨text, -, htext⟩ := List.mem_map.mp hmem
  rw [← htext, fromUtf8_utf8]
  rfl

theorem plain_of_texts : ∀ text ∈ texts, '\n' ∉ text ∧ '\r' ∉ text := by
  intro text htext
  have hmem : utf8 text ∈ parts.map Part.bytes := h ▸ List.mem_map_of_mem htext
  obtain ⟨part, -, hpart⟩ := List.mem_map.mp hmem
  have hprefix : text <+: part.entry.text := isPrefix_of_utf8 (hpart ▸ part.isPrefix)
  obtain ⟨hnewline, hreturn⟩ := part.entry.newline_notMem_text
  exact ⟨fun h => hnewline ( hprefix.subset h), fun h => hreturn ( hprefix.subset h)⟩

end

theorem list_ok_iff {disk : Option Bytes} (h : HoldsLines (disk.getD []) (parts.map Part.bytes))
    (limit : Nat) (out : List TaskExecutionLedgerEntry) :
    store.list disk limit none = .ok out ↔
      (disk.getD []).length ≤ store.maxWriteSize ∧ (∀ part ∈ parts, (fromUtf8 part.bytes).isSome) ∧
      (∀ part ∈ parts.rtake (max limit 1), part.Whole) ∧ out = (parts.rtake (max limit 1)).map Part.entry := by
  have hempty (hfile : disk.getD [] = []) : (Except.ok [] : Except Error (List TaskExecutionLedgerEntry)) = .ok out ↔
      (disk.getD []).length ≤ store.maxWriteSize ∧ (∀ part ∈ parts, (fromUtf8 part.bytes).isSome) ∧
      (∀ part ∈ parts.rtake (max limit 1), part.Whole) ∧ out = (parts.rtake (max limit 1)).map Part.entry := by
    rw [hfile] at h ⊢
    obtain rfl := List.map_eq_nil_iff.mp h.eq_nil
    rw [List.rtake_nil]
    exact ⟨fun h => ⟨Nat.zero_le _, List.forall_mem_nil _, List.forall_mem_nil _, (Except.ok.inj h).symm⟩,
      fun h => by rw [h.2.2.2]; rfl⟩
  unfold list
  cases disk with
  | none => exact hempty rfl
  | some file =>
    rw [readFile]
    dsimp only [Option.getD_some] at h hempty ⊢
    by_cases hsize : file.length > store.maxWriteSize
    · rw [if_pos hsize]
      exact ⟨fun h => (by cases h), fun h => absurd h.1 (Nat.not_le_of_gt hsize)⟩
    · rw [if_neg hsize]
      dsimp only
      by_cases hfile : file = []
      · rw [if_pos hfile]
        exact hempty hfile
      · rw [if_neg hfile]
        cases hcontent : fromUtf8 file with
        | none =>
          refine ⟨fun h => (by cases h), fun hall => ?_⟩
          obtain ⟨texts, htexts⟩ := exists_texts_of_isSome hall.2.1
          rw [htexts] at h
          obtain ⟨content, hread, -⟩ := h.textLines (plain_of_texts htexts)
          rw [hcontent] at hread
          cases hread
        | some content =>
          obtain ⟨texts, htexts⟩ := h.exists_texts (lf_notMem_parts parts) hcontent
          have hlines := h
          rw [htexts] at hlines
          obtain ⟨content', hread, hcontentLines⟩ := hlines.textLines (plain_of_texts htexts)
          obtain rfl : content = content' := Option.some.inj (hcontent.symm.trans hread)
          have hlast : (parts.rtake (max limit 1)).reverse.map Part.bytes =
              (texts.reverse.take (max limit 1)).map utf8 := by
            rw [List.rtake_eq_reverse_take_reverse, List.reverse_reverse, List.map_take, List.map_take, List.map_reverse,
              List.map_reverse, htexts]
          have hentries := @entries_ok_iff store _ _ hlast out.reverse
          have hreverse : (store.entries (texts.reverse.take (max limit 1))).map List.reverse = .ok out ↔
              store.entries (texts.reverse.take (max limit 1)) = .ok out.reverse := by
            rcases store.entries (texts.reverse.take (max limit 1)) with e | found
            · exact ⟨fun h => (by cases h), fun h => (by cases h)⟩
            · exact ⟨fun h => by rw [← Except.ok.inj h, List.reverse_reverse],
                fun h => by rw [Except.ok.inj h]; exact congrArg Except.ok (List.reverse_reverse out)⟩
          dsimp only
          rw [hcontentLines, hreverse, hentries, List.map_reverse, List.reverse_inj]
          refine ⟨fun h => ⟨Nat.le_of_not_lt hsize, isSome_of_texts htexts, fun part hpart => ?_, h.2⟩,
            fun h => ⟨fun part hpart => ?_, h.2.2.2⟩⟩
          · exact h.1 part (List.mem_reverse.mpr hpart)
          · exact h.2.2.1 part (List.mem_reverse.mp hpart)

end StorageTaskExecutionLedgerStore

/-- The last entries are listed, of all appends that returned `Ok`, exactly if the file is within the limit for
reading, no line in it was cut within a character, none of the last lines was cut at all, and those that were
written whole by failed appends have not taken the place of others. -/
theorem list_after_appends_iff (store : StorageTaskExecutionLedgerStore)
    (appends : List (TaskExecutionLedgerEntry × Option LineFault)) (limit : Nat) :
    (∃ out, store.list (store.runAppends appends).disk limit none = .ok out ∧
      ((store.runAppends appends).stored.rtake limit).Sublist out) ↔
    ((store.runAppends appends).disk.getD []).length ≤ store.maxWriteSize ∧
    (∀ part ∈ (store.runAppends appends).parts, (fromUtf8 part.bytes).isSome) ∧
    (∀ part ∈ (store.runAppends appends).parts.rtake (max limit 1), part.Whole) ∧
    ((store.runAppends appends).stored.rtake limit).Sublist
      (((store.runAppends appends).parts.rtake (max limit 1)).map Part.entry) := by
  have hholds : (store.runAppends appends).Holds := StorageTaskExecutionLedgerStore.holds_runAppends appends
  have hlist (out : List TaskExecutionLedgerEntry) := @StorageTaskExecutionLedgerStore.list_ok_iff store _ _ hholds limit out
  constructor
  · rintro ⟨out, hout, hsublist⟩
    obtain ⟨hsize, htext, hwhole, rfl⟩ := (hlist out).mp hout
    exact ⟨hsize, htext, hwhole, hsublist⟩
  · rintro ⟨hsize, htext, hwhole, hsublist⟩
    exact ⟨_, (hlist _).mpr ⟨hsize, htext, hwhole, rfl⟩, hsublist⟩

def hostLedgerStore : StorageTaskExecutionLedgerStore :=
  ⟨maxWriteSizeHost, fun _ => "invalid utf-8 sequence", fun _ => "EOF while parsing an object"⟩

def ledgerEntry (sequence : UInt32) : TaskExecutionLedgerEntry :=
  ⟨sequence, "tr_1".toList, [], .runCreated, .planning, [], 1⟩

/-- After one whole line, one of which a single byte is written. -/
def tornAppends : List (TaskExecutionLedgerEntry × Option LineFault) :=
  [(ledgerEntry 1, none), (ledgerEntry 2, some (.within 1 (.io ⟨.other, some 28⟩ "storage_append_line")))]

theorem torn_line_hides_ledger :
    ¬ ∀ (store : StorageTaskExecutionLedgerStore) (appends : List (TaskExecutionLedgerEntry × Option LineFault)) (limit : Nat),
      ∃ out, store.list (store.runAppends appends).disk limit none = .ok out ∧
        ((store.runAppends appends).stored.rtake limit).Sublist out := by
  intro hall
  obtain ⟨out, hout, -⟩ := hall hostLedgerStore tornAppends 2
  have hholds : (hostLedgerStore.runAppends tornAppends).Holds :=
    StorageTaskExecutionLedgerStore.holds_runAppends tornAppends
  have hwhole := ((StorageTaskExecutionLedgerStore.list_ok_iff hholds 2 out).mp hout).2.2.1
  have htorn : ((hostLedgerStore.runAppends tornAppends).parts.rtake 2).any (fun part => part.bytes.length = 1) = true := by
    decide +kernel
  obtain ⟨part, hpart, hlength⟩ := List.any_eq_true.mp htorn
  have hline : part.entry.line.length = 1 := by
    rw [← hwhole part hpart]
    exact of_decide_eq_true hlength
  obtain ⟨body, htext, -⟩ := part.entry.text_eq
  have hlong := length_le_utf8 part.entry.text
  rw [← TaskExecutionLedgerEntry.line, hline, htext, List.length_append, List.length_cons, List.length_singleton] at hlong
  omega

end Beetle.Platform.Storage
