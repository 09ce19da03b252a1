import Beetle.Lib.Bytes

/-! The SSE line parser shared by the Anthropic and OpenAI streaming formats. -/
namespace Beetle.Llm.Sse
open Beetle.Lib

structure SseEvent where
  event : Bytes
  data : Bytes
  deriving DecidableEq

/-- `SSE_LINE_BUF_SIZE` on the ESP targets and elsewhere. -/
def sseLineBufSizeEsp : Nat := 6 * 1024
def sseLineBufSizeHost : Nat := 16 * 1024

/-- `buf` is the filled part of the line buffer; `pos` goes one past its size
when a line overflows. -/
structure SseLineReader where
  buf : Bytes
  pos : Nat
  currentEvent : Bytes
  currentData : Bytes
  pending : List SseEvent

def SseLineReader.new : SseLineReader := ⟨[], 0, [], [], []⟩

/-- An empty line ends the event under construction, if there is one. -/
def dispatch (r : SseLineReader) : SseLineReader :=
  if r.currentData ≠ [] ∨ r.currentEvent ≠ [] then
    { r with
      pending := r.pending ++ [⟨r.currentEvent, r.currentData⟩], currentEvent := [], currentData := [] }
  else r

/-- What comes after the first colon, less one optional space. -/
def fieldValue (line : Bytes) : Bytes :=
  match line.drop ((line.takeWhile (· ≠ colon)).length + 1) with
  | [] => []
  | b :: rest => if b = space then rest else b :: rest

def processField (r : SseLineReader) (field value : Bytes) : SseLineReader :=
  if field = bytes "event" then { r with currentEvent := value }
  else if field = bytes "data" then
    { r with currentData := (if r.currentData ≠ [] then r.currentData ++ [lf] else []) ++ value }
  else r

def processLine (r : SseLineReader) : SseLineReader :=
  let line := r.buf
  if line = [] then dispatch r
  else if line.head? = some colon then r
  else if !isUtf8 line then r
  else if colon ∈ line then processField r (line.takeWhile (· ≠ colon)) (fieldValue line)
  else r

def feedByte (bufSize : Nat) (r : SseLineReader) (b : UInt8) : SseLineReader :=
  if b = lf then { processLine r with buf := [], pos := 0 }
  else if b = cr then { processLine r with buf := [], pos := 0 }
  else if r.pos < bufSize then { r with buf := r.buf ++ [b], pos := r.pos + 1 }
  else if r.pos = bufSize then { r with pos := r.pos + 1 }
  else r

@[grind =] def feed (bufSize : Nat) (r : SseLineReader) (chunk : Bytes) : SseLineReader :=
  chunk.foldl (feedByte bufSize) r

/-- Take events out with `next_event` until there is none. -/
def drain (r : SseLineReader) : List SseEvent × SseLineReader :=
  (r.pending, { r with pending := [] })

/-- Feed the chunks one by one, taking out the finished events after each. -/
def readEvents (bufSize : Nat) (r : SseLineReader) : List Bytes → List SseEvent
  | [] => (drain r).1
  | chunk :: chunks =>
    let (events, r) := drain (feed bufSize r chunk)
    events ++ readEvents bufSize r chunks

theorem feed_append (bufSize : Nat) (r : SseLineReader) (a b : Bytes) :
    feed bufSize r (a ++ b) = feed bufSize (feed bufSize r a) b :=
  List.foldl_append

/-- Events already finished do not influence the parser. -/
def withPending (events : List SseEvent) (r : SseLineReader) : SseLineReader :=
  { r with pending := events ++ r.pending }

theorem processLine_withPending (events : List SseEvent) (r : SseLineReader) :
    processLine (withPending events r) = withPending events (processLine r) := by
  unfold processLine dispatch processField withPending
  dsimp only
  repeat' split
  all_goals simp

theorem feedByte_withPending (bufSize : Nat) (events : List SseEvent) (r : SseLineReader)
    (b : UInt8) : feedByte bufSize (withPending events r) b = withPending events (feedByte bufSize r b) := by
  have hline : { processLine (withPending events r) with buf := [], pos := 0 } =
      withPending events { processLine r with buf := [], pos := 0 } := by
    rw [processLine_withPending]
    rfl
  by_cases hlf : b = lf
  · rw [feedByte, feedByte, if_pos hlf, if_pos hlf, hline]
  by_cases hcr : b = cr
  · rw [feedByte, feedByte, if_neg hlf, if_pos hcr, if_neg hlf, if_pos hcr, hline]
  simp only [feedByte, hlf, hcr, if_false]
  by_cases hlt : r.pos < bufSize
  · simp [withPending, hlt]
  · by_cases heq : r.pos = bufSize
    · simp [withPending, heq]
    · simp [withPending, hlt, heq]

theorem feed_withPending (bufSize : Nat) (events : List SseEvent) (r : SseLineReader)
    (chunk : Bytes) : feed bufSize (withPending events r) chunk = withPending events (feed bufSize r chunk) := by
  unfold feed
  induction chunk generalizing r with
  | nil => rfl
  | cons b chunk ih => rw [List.foldl_cons, feedByte_withPending, ih, List.foldl_cons]

/-- The events do not depend on how the bytes are cut into chunks, nor on when
the finished events are taken out. -/
theorem readEvents_eq (bufSize : Nat) (r : SseLineReader) (chunks : List Bytes) :
    readEvents bufSize r chunks = (feed bufSize r chunks.flatten).pending := by
  induction chunks generalizing r with
  | nil => rfl
  | cons chunk chunks ih =>
    have hr : feed bufSize r chunk = withPending (feed bufSize r chunk).pending
        (drain (feed bufSize r chunk)).2 := by simp [withPending, drain]
    rw [List.flatten_cons, feed_append, hr, feed_withPending]
    simp only [readEvents, ih, withPending, drain]

/-! What the SSE parser makes of the same lines under different line endings. -/

/-- What a line asks of the parser. -/
inductive LineKind where
  | blank
  | event (value : Bytes)
  | data (value : Bytes)
  | ignored

@[grind =] def lineKind (line : Bytes) : LineKind :=
  if line = [] then .blank
  else if line.head? = some colon ∨ isUtf8 line = false ∨ colon ∉ line then .ignored
  else if line.takeWhile (· ≠ colon) = bytes "event" then .event (fieldValue line)
  else if line.takeWhile (· ≠ colon) = bytes "data" then .data (fieldValue line)
  else .ignored

@[grind =] def joinData (d v : Bytes) : Bytes := (if d ≠ [] then d ++ [lf] else []) ++ v

theorem processLine_eq (r : SseLineReader) :
    processLine r = match lineKind r.buf with
      | .blank => dispatch r
      | .event v => { r with currentEvent := v }
      | .data v => { r with currentData := joinData r.currentData v }
      | .ignored => r := by
  unfold processLine lineKind
  by_cases hnil : r.buf = []
  · simp [hnil]
  by_cases hcom : r.buf.head? = some colon
  · simp [hnil, hcom]
  by_cases hutf : isUtf8 r.buf = false
  · simp [hnil, hcom, hutf]
  by_cases hcol : colon ∈ r.buf
  · simp only [hnil, hcom, hutf, hcol, if_true, if_false, processField, not_true, or_false,
      Bool.not_true, Bool.false_eq_true, Bool.true_eq_false]
    by_cases hev : r.buf.takeWhile (· ≠ colon) = bytes "event"
    · simp only [hev, if_true]
    · simp only [hev, if_false]
      by_cases hda : r.buf.takeWhile (· ≠ colon) = bytes "data"
      · simp only [hda, if_true, joinData]
      · simp only [hda, if_false]
  · simp [hnil, hcom, hutf, hcol]

/-- The events that lines of these kinds yield from a given event under
construction. -/
@[grind =] def events : Bytes → Bytes → List LineKind → List SseEvent
  | _, _, [] => []
  | e, d, .blank :: ks => if d ≠ [] ∨ e ≠ [] then ⟨e, d⟩ :: events [] [] ks else events e d ks
  | _, d, .event v :: ks => events v d ks
  | e, d, .data v :: ks => events e (joinData d v) ks
  | e, d, .ignored :: ks => events e d ks

variable {bufSize : Nat} {ks : List LineKind}

theorem feed_bytes {r : SseLineReader} {line : Bytes} (hcr : cr ∉ line)
    (hlf : lf ∉ line) (hpos : r.pos = r.buf.length) (hlen : r.buf.length + line.length ≤ bufSize) :
    feed bufSize r line = { r with buf := r.buf ++ line, pos := r.pos + line.length } := by
  induction line generalizing r with
  | nil => simp [feed]
  | cons b line ih =>
    rw [List.mem_cons, not_or] at hcr hlf
    rw [List.length_cons] at hlen
    have hb : feedByte bufSize r b = { r with buf := r.buf ++ [b], pos := r.pos + 1 } := by
      rw [feedByte, if_neg (Ne.symm hlf.1), if_neg (Ne.symm hcr.1), if_pos (by omega)]
    have hrest := @ih { r with buf := r.buf ++ [b], pos := r.pos + 1 } hcr.2 hlf.2
      (by simp [hpos]) (by simp; omega)
    rw [feed, List.foldl_cons, hb]
    rw [feed] at hrest
    rw [hrest]
    simp [Nat.add_assoc, Nat.add_comm 1]

/-- A reader at the start of a line. -/
def AtLineStart (r : SseLineReader) : Prop := r.buf = [] ∧ r.pos = 0

theorem feed_line {r : SseLineReader} {line : Bytes} {t : UInt8}
    (ht : t = cr ∨ t = lf) (hcr : cr ∉ line) (hlf : lf ∉ line) (hlen : line.length ≤ bufSize) (hr : AtLineStart r) :
    feed bufSize r (line ++ [t]) = { processLine { r with buf := line } with buf := [], pos := 0 } := by
  obtain ⟨hbuf, hpos⟩ := hr
  have hend : ∀ q, feedByte bufSize q t = { processLine q with buf := [], pos := 0 } := by
    intro q
    rcases ht with rfl | rfl
    · rw [feedByte, if_neg (by decide), if_pos rfl]
    · rw [feedByte, if_pos rfl]
  have hline := feed_bytes (r := r) hcr hlf (by simp [hbuf, hpos]) (by simpa [hbuf] using hlen)
  rw [feed_append, hline]
  simp only [feed, List.foldl_cons, List.foldl_nil, hend, hbuf, hpos, List.nil_append]
  rw [processLine_eq, processLine_eq]
  dsimp only
  cases lineKind line <;> simp [dispatch]
  split <;> simp

/-- The lines, each with the given line ending. -/
def terminated (ending : Bytes) (lines : List Bytes) : Bytes :=
  (lines.map (· ++ ending)).flatten

/-- A line that fits the line buffer and holds no line ending. -/
def PlainLine (bufSize : Nat) (line : Bytes) : Prop :=
  cr ∉ line ∧ lf ∉ line ∧ line.length ≤ bufSize

instance (bufSize : Nat) (line : Bytes) : Decidable (PlainLine bufSize line) :=
  inferInstanceAs (Decidable (_ ∧ _ ∧ _))

theorem pending_feed_endings (bufSize : Nat) (lines : List (Bytes × UInt8))
    (hplain : ∀ l ∈ lines, PlainLine bufSize l.1) (hends : ∀ l ∈ lines, l.2 = cr ∨ l.2 = lf)
    (r : SseLineReader) (hr : AtLineStart r) :
    (feed bufSize r (lines.map fun l => l.1 ++ [l.2]).flatten).pending =
      r.pending ++ events r.currentEvent r.currentData (lines.map fun l => lineKind l.1) := by
  induction lines generalizing r with
  | nil => simp [feed, events]
  | cons l lines ih =>
    obtain ⟨hcr, hlf, hlen⟩ := hplain l (by simp)
    rw [List.map_cons, List.flatten_cons, feed_append,
      feed_line (hends l (by simp)) hcr hlf hlen hr,
      ih (fun m hm => hplain m (by simp [hm])) (fun m hm => hends m (by simp [hm])) _ ⟨rfl, rfl⟩,
      processLine_eq, List.map_cons]
    dsimp only
    cases lineKind l.1 with
    | blank =>
      by_cases hopen : r.currentData ≠ [] ∨ r.currentEvent ≠ []
      · simp [dispatch, events, hopen]
      · simp [dispatch, events, hopen]
    | event v => rfl
    | data v => rfl
    | ignored => rfl

theorem pending_feed_lines {lines : List Bytes}
    (hplain : ∀ l ∈ lines, PlainLine bufSize l) {t : UInt8} (ht : t = cr ∨ t = lf) :
    (feed bufSize .new (terminated [t] lines)).pending = events [] [] (lines.map lineKind) := by
  have h := pending_feed_endings bufSize (lines.map fun l => (l, t))
    (by simpa using hplain) (by simp [ht]) .new ⟨rfl, rfl⟩
  simpa [terminated, SseLineReader.new, Function.comp_def] using h

theorem pending_feed_crlf {lines : List Bytes} (hplain : ∀ l ∈ lines, PlainLine bufSize l) :
    (feed bufSize .new (terminated [cr, lf] lines)).pending =
      events [] [] (lines.flatMap fun l => [lineKind l, .blank]) := by
  have hbytes : (terminated [cr, lf] lines) =
      ((lines.flatMap fun l => [(l, cr), ([], lf)]).map fun l => l.1 ++ [l.2]).flatten := by
    induction lines with
    | nil => rfl
    | cons l lines ih =>
      have := ih fun m hm => hplain m (by simp [hm])
      simp_all [terminated]
  have h := pending_feed_endings bufSize (lines.flatMap fun l => [(l, cr), ([], lf)])
    (by
      simp only [List.mem_flatMap, List.mem_cons, List.not_mem_nil, or_false]
      rintro _ ⟨l, hl, rfl | rfl⟩
      · exact hplain l hl
      · simp [PlainLine])
    (by
      simp only [List.mem_flatMap, List.mem_cons, List.not_mem_nil, or_false]
      rintro _ ⟨l, hl, rfl | rfl⟩
      · exact .inl rfl
      · exact .inr rfl) .new ⟨rfl, rfl⟩
  have hblank : lineKind [] = .blank := by simp [lineKind]
  rw [hbytes, h]
  simp [SseLineReader.new, List.map_flatMap, hblank]

/-- The event a line makes on its own, when a blank line follows at once. -/
@[grind =] def ownEvent : LineKind → Option SseEvent
  | .event v => if v = [] then none else some ⟨v, []⟩
  | .data v => if v = [] then none else some ⟨[], v⟩
  | _ => none

theorem events_each_ended (ks : List LineKind) :
    events [] [] (ks.flatMap fun k => [k, .blank]) = ks.filterMap ownEvent := by
  induction ks with
  | nil => rfl
  | cons k ks ih =>
    rw [List.flatMap_cons, List.filterMap_cons]
    cases k with
    | blank => simpa [events, ownEvent] using ih
    | event v => by_cases hv : v = [] <;> simpa [events, ownEvent, hv] using ih
    | data v => by_cases hv : v = [] <;> simpa [events, ownEvent, joinData, hv] using ih
    | ignored => simpa [events, ownEvent] using ih

/-- A blank line comes, and before it no event or data line that has a value
and no line of the same field as the one before. -/
def EndsBeforeNext (ofEvent : Bool) : List LineKind → Prop
  | [] => False
  | .blank :: _ => True
  | .event v :: ks => v = [] ∧ ofEvent = false ∧ EndsBeforeNext ofEvent ks
  | .data v :: ks => v = [] ∧ ofEvent = true ∧ EndsBeforeNext ofEvent ks
  | .ignored :: ks => EndsBeforeNext ofEvent ks

/-- Every event or data line with a value ends before the next one. -/
def OneValueEach : List LineKind → Prop
  | [] => True
  | .event v :: ks => (v ≠ [] → EndsBeforeNext true ks) ∧ OneValueEach ks
  | .data v :: ks => (v ≠ [] → EndsBeforeNext false ks) ∧ OneValueEach ks
  | .blank :: ks => OneValueEach ks
  | .ignored :: ks => OneValueEach ks

/-- Every finished event takes up at least one line with a value, apart from
the one under construction. -/
theorem length_events_le (e d : Bytes) (ks : List LineKind) :
    (events e d ks).length ≤
      (ks.filterMap ownEvent).length + (if d ≠ [] ∨ e ≠ [] then 1 else 0) := by
  induction ks generalizing e d with
  | nil => simp [events]
  | cons k ks ih =>
    cases k with
    | blank =>
      by_cases hopen : d ≠ [] ∨ e ≠ []
      · simpa [events, ownEvent, List.filterMap_cons, hopen] using ih [] []
      · simpa [events, ownEvent, List.filterMap_cons, hopen] using ih e d
    | ignored => simpa [events, ownEvent, List.filterMap_cons] using ih e d
    | event v =>
      have h := ih v d
      by_cases hv : v = []
      · by_cases hd : d = [] <;> simp [events, ownEvent, hv, hd] at h ⊢ <;> omega
      · by_cases hd : d = [] <;> simp [events, ownEvent, hv, hd] at h ⊢ <;> omega
    | data v =>
      have h := ih e (joinData d v)
      by_cases hv : v = []
      · by_cases hd : d = [] <;> simp [events, ownEvent, joinData, hv, hd] at h ⊢ <;> omega
      · by_cases hd : d = [] <;> simp [events, ownEvent, joinData, hv, hd] at h ⊢ <;> omega

/-- The data under construction only grows until its event is finished. -/
theorem data_of_events_cons {e d : Bytes} (hd : d ≠ []) {x : SseEvent}
    {rest : List SseEvent} (h : events e d ks = x :: rest) : d.length ≤ x.data.length := by
  induction ks generalizing e d with
  | nil => cases h
  | cons k ks ih =>
    cases k with
    | blank =>
      simp only [events, ne_eq, hd, not_false_eq_true, true_or, if_true, List.cons.injEq] at h
      exact h.1 ▸ Nat.le_refl _
    | event v => exact ih hd h
    | ignored => exact ih hd h
    | data v =>
      have hgrow := ih (d := joinData d v) (by simp [joinData, hd]) h
      simp only [joinData, ne_eq, hd, not_false_eq_true, if_true, List.length_append] at hgrow
      omega

/-- Where an event or data line with a value already takes up the event under
construction, too few events are left to make up for another such line. -/
theorem events_ne_of_short {e d : Bytes} {x y : SseEvent} : events e d ks ≠ x :: y :: ks.filterMap ownEvent := by
  intro h
  have hle := length_events_le e d ks
  rw [h, List.length_cons, List.length_cons] at hle
  split at hle <;> omega

theorem events_closed_ne {x : SseEvent} : events [] [] ks ≠ x :: ks.filterMap ownEvent := by
  intro h
  have hle := length_events_le [] [] ks
  rw [h, List.length_cons] at hle
  simp only [ne_eq, not_true_eq_false, or_self, if_false] at hle
  omega

/-- The lines after one with a value leave its event alone exactly when it ends
before the next such line. -/
theorem events_open_iff (ofEvent : Bool) {v : Bytes} (hv : v ≠ []) (ks : List LineKind)
    (hrest : ∀ ks', ks'.length ≤ ks.length →
      (events [] [] ks' = ks'.filterMap ownEvent ↔ OneValueEach ks')) :
    events (if ofEvent then v else []) (if ofEvent then [] else v) ks =
        ⟨if ofEvent then v else [], if ofEvent then [] else v⟩ :: ks.filterMap ownEvent ↔
      EndsBeforeNext ofEvent ks ∧ OneValueEach ks := by
  induction ks with
  | nil => simp [events, EndsBeforeNext]
  | cons k ks ih =>
    have ih := ih fun ks' h => hrest ks' (by simp; omega)
    cases k with
    | blank =>
      have h := hrest ks (by simp)
      cases ofEvent <;>
        simpa [events, ownEvent, List.filterMap_cons, hv, EndsBeforeNext, OneValueEach] using h
    | ignored => simpa [events, ownEvent, List.filterMap_cons, EndsBeforeNext, OneValueEach] using ih
    | event w =>
      by_cases hw : w = []
      · cases ofEvent with
        | false => simpa [events, ownEvent, List.filterMap_cons, hw, EndsBeforeNext, OneValueEach] using ih
        | true => simp [events, ownEvent, hw, EndsBeforeNext, events_closed_ne]
      · simp [events, ownEvent, hw, EndsBeforeNext, events_ne_of_short]
    | data w =>
      by_cases hw : w = []
      · cases ofEvent with
        | false =>
          -- the empty value still adds a line feed to the data
          have hgrow : events [] (v ++ [lf]) ks ≠ ⟨[], v⟩ :: ks.filterMap ownEvent := by
            intro h
            have hle := data_of_events_cons (by simp) h
            simp only [List.length_append, List.length_singleton] at hle
            omega
          simp [events, ownEvent, joinData, hv, hw, EndsBeforeNext, hgrow]
        | true =>
          simpa [events, ownEvent, List.filterMap_cons, joinData, hw, EndsBeforeNext, OneValueEach] using ih
      · simp [events, ownEvent, hw, EndsBeforeNext, events_ne_of_short]

theorem events_iff (ks : List LineKind) :
    events [] [] ks = ks.filterMap ownEvent ↔ OneValueEach ks := by
  induction hn : ks.length using Nat.strongRecOn generalizing ks with
  | ind n ih =>
    subst hn
    cases ks with
    | nil => simp [events, OneValueEach]
    | cons k ks =>
      have hrest : ∀ ks', ks'.length ≤ ks.length →
          (events [] [] ks' = ks'.filterMap ownEvent ↔ OneValueEach ks') :=
        fun ks' h => ih ks'.length (by simp; omega) ks' rfl
      have hks := hrest ks (Nat.le_refl _)
      cases k with
      | blank => simpa [events, ownEvent, List.filterMap_cons, OneValueEach] using hks
      | ignored => simpa [events, ownEvent, List.filterMap_cons, OneValueEach] using hks
      | event v =>
        by_cases hv : v = []
        · simpa [events, ownEvent, List.filterMap_cons, hv, OneValueEach] using hks
        · simpa [events, ownEvent, List.filterMap_cons, hv, OneValueEach] using
            events_open_iff true hv ks hrest
      | data v =>
        by_cases hv : v = []
        · simpa [events, ownEvent, List.filterMap_cons, joinData, hv, OneValueEach] using hks
        · simpa [events, ownEvent, List.filterMap_cons, joinData, hv, OneValueEach] using
            events_open_iff false hv ks hrest

/-- The lines yield the same events under all three line endings, however the
bytes are cut into chunks. -/
def EndingIndependent (bufSize : Nat) (lines : List Bytes) : Prop :=
  ∀ lfChunks crlfChunks crChunks : List Bytes,
    lfChunks.flatten = terminated [lf] lines → crlfChunks.flatten = terminated [cr, lf] lines →
    crChunks.flatten = terminated [cr] lines →
    readEvents bufSize .new crlfChunks = readEvents bufSize .new lfChunks ∧
      readEvents bufSize .new crChunks = readEvents bufSize .new lfChunks

/-- The line feed after a carriage return counts as a blank line of its own, so
the line ending makes no difference exactly when no event needs two lines. -/
theorem ending_independent_iff {bufSize : Nat} {lines : List Bytes}
    (hplain : ∀ l ∈ lines, PlainLine bufSize l) :
    EndingIndependent bufSize lines ↔ OneValueEach (lines.map lineKind) := by
  have hcrlf : events [] [] (lines.flatMap fun l => [lineKind l, .blank]) =
      (lines.map lineKind).filterMap ownEvent := by
    rw [← events_each_ended, List.flatMap_map]
  rw [← events_iff]
  constructor
  · intro h
    have hone := (h [terminated [lf] lines] [terminated [cr, lf] lines] [terminated [cr] lines]
      (by simp) (by simp) (by simp)).1
    rw [readEvents_eq, readEvents_eq, List.flatten_singleton, List.flatten_singleton,
      pending_feed_crlf hplain, pending_feed_lines hplain (.inr rfl), hcrlf] at hone
    exact hone.symm
  · intro h lfChunks crlfChunks crChunks hl hcl hc
    simp only [readEvents_eq, hl, hcl, hc]
    rw [pending_feed_crlf hplain, pending_feed_lines hplain (.inr rfl),
      pending_feed_lines hplain (.inl rfl), hcrlf]
    exact ⟨h.symm, rfl⟩

/-- An event of two lines comes apart under CRLF. -/
theorem two_line_event_split_under_crlf :
    (∀ l ∈ [bytes "event: a", bytes "data: b", []], PlainLine sseLineBufSizeHost l) ∧
      ¬ EndingIndependent sseLineBufSizeHost [bytes "event: a", bytes "data: b", []] := by
  refine ⟨by decide +kernel, fun h => ?_⟩
  have hone := (h [bytes "event: a\ndata: b\n\n"] [bytes "event: a\r\ndata: b\r\n\r\n"]
    [bytes "event: a\rdata: b\r\r"] (by decide +kernel) (by decide +kernel) (by decide +kernel)).1
  exact absurd hone (by decide +kernel)

theorem ending_independent_one_line :
    EndingIndependent sseLineBufSizeHost [bytes "data: b", []] ↔
      OneValueEach ([bytes "data: b", []].map lineKind) :=
  ending_independent_iff (by decide +kernel)

end Beetle.Llm.Sse
