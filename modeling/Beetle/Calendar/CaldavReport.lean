import Beetle.Calendar.Ical

/-! The report of a CalDAV server, as the events of an XML reader. -/
namespace Beetle.Calendar.Caldav
open Beetle.Lib

/-- An event of the reader, with decoded texts; `ref` is a reference to a character or an entity. -/
inductive XmlEvent where
  | start (name : List Char)
  | text (cs : List Char)
  | cData (cs : List Char)
  | ref (name : List Char)
  | stop (name : List Char)
  | other

def localName (name : List Char) : List Char := (name.splitOn ':').getLastD name

structure RawCalendarResponse where
  href : List Char
  calendarData : List Char

def RawCalendarResponse.default : RawCalendarResponse := ⟨[], []⟩

structure ReportState where
  stack : List (List Char)
  current : RawCalendarResponse
  responses : List RawCalendarResponse

/-- One turn of the loop of `parse_calendar_query_response`; the innermost element is first. -/
@[grind =] def ReportState.read (st : ReportState) : XmlEvent → ReportState
  | .start name =>
    let name := localName name
    { st with
      current := if name = "response".toList then .default else st.current
      stack := name :: st.stack }
  | .text value =>
    match st.stack with
    | tag :: _ =>
      if tag = "href".toList then { st with current := { st.current with href := value } }
      else if tag = "calendar-data".toList then { st with current := { st.current with calendarData := value } }
      else st
    | [] => st
  | .cData value =>
    if st.stack.head? = some "calendar-data".toList then { st with current := { st.current with calendarData := value } } else st
  | .stop name =>
    if localName name = "response".toList then ⟨st.stack.tail, .default, st.responses ++ [st.current]⟩
    else { st with stack := st.stack.tail }
  | .ref _ | .other => st

def readReport : ReportState → List (Except String XmlEvent) → Except Fault ReportState
  | st, [] => .ok st
  | _, .error message :: _ => .error (.error (.config message "caldav_report_parse"))
  | st, .ok event :: events => readReport (st.read event) events

def collectResponses (events : List (Except String XmlEvent)) : Except Fault (List RawCalendarResponse) :=
  (readReport ⟨[], .default, []⟩ events).map ReportState.responses

def RawCalendarResponse.isComplete (response : RawCalendarResponse) : Bool :=
  !(trim response.href = [] || trim response.calendarData = [])

def parseCalendarQueryResponse (decode : List Char → Option (List Char)) (now : Nat) (credential : CalendarProviderCredential)
    (events : List (Except String XmlEvent)) : Except Fault (List CalendarEvent) := do
  let responses ← collectResponses events
  (responses.filter RawCalendarResponse.isComplete).mapM fun response =>
    parseIcalEvent decode now credential response.href response.calendarData

/-! Documents, and the events that a reader that trims texts makes of them. -/

/-- A piece of the text of an element, in one of the ways to write it. -/
inductive Piece where
  | text (cs : List Char)
  | cData (cs : List Char)
  | ref (name value : List Char)

/-- The text that a piece stands for. -/
def Piece.decoded : Piece → List Char
  | text cs | cData cs | ref _ cs => cs

/-- The content of an element: its first part and the rest. -/
inductive Content where
  | nil
  | piece (p : Piece) (rest : Content)
  | element (name : List Char) (content rest : Content)
  /-- An empty element, a comment, a processing instruction or a declaration. -/
  | other (rest : Content)

def isXmlBlank (c : Char) : Bool := c = ' ' || c = '\t' || c = '\r' || c = '\n'

def trimXml (cs : List Char) : List Char := trimEnds isXmlBlank cs

@[grind =] def Piece.events : Piece → List XmlEvent
  | text cs => if trimXml cs = [] then [] else [.text (trimXml cs)]
  | cData cs => [.cData cs]
  | ref name _ => [.ref name]

namespace Content

@[grind =] def events : Content → List XmlEvent
  | nil => []
  | piece p rest => p.events ++ rest.events
  | element name content rest => .start name :: content.events ++ .stop name :: rest.events
  | other rest => .other :: rest.events

/-- The pieces that stand directly in elements of this name; `parent` is the name of the element around. -/
@[grind =] def pieces (name : List Char) : Option (List Char) → Content → List Piece
  | _, nil => []
  | parent, piece p rest => (if parent = some name then [p] else []) ++ rest.pieces name parent
  | parent, element inner content rest => content.pieces name (some (localName inner)) ++ rest.pieces name parent
  | parent, other rest => rest.pieces name parent

/-- The contents of the elements of this name. -/
def named (name : List Char) : Content → List Content
  | nil => []
  | piece _ rest | other rest => rest.named name
  | element inner content rest => (if localName inner = name then [content] else content.named name) ++ rest.named name

end Content

/-- A document without a response in a response. -/
structure Multistatus where
  document : Content
  flat : ∀ content ∈ document.named "response".toList, content.named "response".toList = []

namespace Multistatus

def responses (m : Multistatus) : List Content := m.document.named "response".toList

@[grind =] def events (m : Multistatus) : List (Except String XmlEvent) := m.document.events.map .ok

end Multistatus

/-- The text of the element of this name in a response; there is one of each. -/
def Content.text (content : Content) (name : String) : List Char :=
  (content.pieces name.toList (some "response".toList)).flatMap Piece.decoded

/-- What was collected of a response has its texts, but for blanks around them. -/
structure RawCalendarResponse.Whole (raw : RawCalendarResponse) (content : Content) : Prop where
  href : trimXml raw.href = trimXml (content.text "href")
  calendarData : trimXml raw.calendarData = trimXml (content.text "calendar-data")

/-- A report is read whole: what is collected has the texts, and each event is read of one response that has both. -/
structure ReadsWhole (decode : List Char → Option (List Char)) (now : Nat) (credential : CalendarProviderCredential)
    (m : Multistatus) (raws : List RawCalendarResponse) : Prop where
  collected : collectResponses m.events = .ok raws
  whole : List.Forall₂ RawCalendarResponse.Whole raws m.responses
  events : parseCalendarQueryResponse decode now credential m.events =
    (raws.filter RawCalendarResponse.isComplete).mapM fun raw => parseIcalEvent decode now credential raw.href raw.calendarData

/-- What a piece of an element gives the loop; `cData` says whether it takes CDATA sections of this element. -/
def Piece.delivered (cData : Bool) : Piece → Option (List Char)
  | text cs => if trimXml cs = [] then none else some (trimXml cs)
  | .cData cs => if cData then some cs else none
  | ref _ _ => none

def Piece.Blank (p : Piece) : Prop := trimXml p.decoded = []

/-- The text of an element comes through: it is in one piece that the loop takes and after which it takes no other, and the
other pieces are blank; or all are. -/
def Carried (cData : Bool) (pieces : List Piece) : Prop :=
  (∀ p ∈ pieces, p.Blank) ∨
    ∃ before p after, pieces = before ++ p :: after ∧ (p.delivered cData).isSome ∧ (∀ q ∈ before ++ after, q.Blank) ∧
      ∀ q ∈ after, q.delivered cData = none

/-! Blanks around a text. -/

section
variable {cs front back : List Char}

theorem trimXml_around (hfront : ∀ c ∈ front, isXmlBlank c = true) (hback : ∀ c ∈ back, isXmlBlank c = true) (cs : List Char) :
    trimXml (front ++ cs ++ back) = trimXml cs := by
  obtain ⟨f, b, hcs, hf, hb⟩ := eq_append_trimEnds isXmlBlank cs
  have hsplit : front ++ cs ++ back = (front ++ f) ++ trimXml cs ++ (b ++ back) := by
    conv_lhs => rw [hcs]
    simp [trimXml]
  rw [hsplit, trimXml]
  exact trimEnds_append (List.forall_mem_append.mpr ⟨hfront, hf⟩) (List.forall_mem_append.mpr ⟨hb, hback⟩)
    (trimEnds_head _ _) (trimEnds_last _ _)

/-- The characters of a text that are not blank. -/
def solid (cs : List Char) : List Char := cs.filter fun c => !isXmlBlank c

theorem solid_append (a b : List Char) : solid (a ++ b) = solid a ++ solid b := List.filter_append _ _

theorem solid_eq_nil : solid cs = [] ↔ ∀ c ∈ cs, isXmlBlank c = true := by
  simp [solid, List.filter_eq_nil_iff]

theorem solid_trimXml (cs : List Char) : solid (trimXml cs) = solid cs := by
  obtain ⟨f, b, hcs, hf, hb⟩ := eq_append_trimEnds isXmlBlank cs
  conv_rhs => rw [hcs]
  rw [solid_append, solid_append, solid_eq_nil.mpr hf, solid_eq_nil.mpr hb, List.nil_append, List.append_nil]
  rfl

theorem trimXml_eq_nil : trimXml cs = [] ↔ solid cs = [] := by
  constructor
  · intro h
    rw [← solid_trimXml, h]
    rfl
  · intro h
    have hnone : ∀ c ∈ ([] : List Char), isXmlBlank c = true := fun c hc => absurd hc List.not_mem_nil
    have hall := trimXml_around hnone (solid_eq_nil.mp h) []
    rw [List.append_nil, List.nil_append] at hall
    exact hall

end

/-! The loop collects the last piece that it takes. -/

def field (cData : Bool) (pieces : List Piece) (value : List Char) : List Char :=
  pieces.foldl (fun value p => (p.delivered cData).getD value) value

section
variable {cData : Bool} {pieces : List Piece} {p : Piece}

theorem trimXml_delivered {value : List Char} (h : p.delivered cData = some value) :
    trimXml value = trimXml p.decoded := by
  cases p with
  | text cs =>
    rw [Piece.delivered] at h
    split at h
    · cases h
    · obtain rfl := Option.some.inj h
      exact trimEnds_eq_self (trimEnds_head _ _) (trimEnds_last _ _)
  | cData cs =>
    rw [Piece.delivered] at h
    split at h
    · obtain rfl := Option.some.inj h
      rfl
    · cases h
  | ref name value => cases h

theorem field_of_none (h : ∀ p ∈ pieces, p.delivered cData = none) (value : List Char) : field cData pieces value = value := by
  induction pieces with
  | nil => rfl
  | cons p pieces ih =>
    rw [List.forall_mem_cons] at h
    rw [field, List.foldl_cons, h.1]
    exact ih h.2

theorem field_append_cons {before after : List Piece} {taken : List Char} (h : p.delivered cData = some taken)
    (hafter : ∀ q ∈ after, q.delivered cData = none) (value : List Char) :
    field cData (before ++ p :: after) value = taken := by
  rw [field, List.foldl_append, List.foldl_cons, h]
  exact field_of_none hafter taken

/-- No piece is taken, or one is the last that is. -/
theorem last_delivered (cData : Bool) (pieces : List Piece) : (∀ p ∈ pieces, p.delivered cData = none) ∨
    ∃ before p after taken, pieces = before ++ p :: after ∧ p.delivered cData = some taken ∧
      ∀ q ∈ after, q.delivered cData = none := by
  induction pieces with
  | nil => exact .inl fun p hp => absurd hp List.not_mem_nil
  | cons p pieces ih =>
    rcases ih with hnone | ⟨before, q, after, taken, rfl, htaken, hafter⟩
    · cases htaken : p.delivered cData with
      | none => exact .inl (List.forall_mem_cons.mpr ⟨htaken, hnone⟩)
      | some taken => exact .inr ⟨[], p, pieces, taken, rfl, htaken, hnone⟩
    · exact .inr ⟨p :: before, q, after, taken, rfl, htaken, hafter⟩

theorem blank_iff : p.Blank ↔ solid p.decoded = [] := trimXml_eq_nil

theorem solid_decoded (pieces : List Piece) : solid (pieces.flatMap Piece.decoded) = [] ↔ ∀ p ∈ pieces, p.Blank := by
  induction pieces with
  | nil => exact iff_of_true rfl fun p hp => absurd hp List.not_mem_nil
  | cons p pieces ih => rw [List.flatMap_cons, solid_append, List.append_eq_nil_iff, List.forall_mem_cons, ih, blank_iff]

theorem trimXml_field_of_carried (h : Carried cData pieces) :
    trimXml (field cData pieces []) = trimXml (pieces.flatMap Piece.decoded) := by
  rcases h with hblank | ⟨before, p, after, rfl, hsome, hblank, hafter⟩
  · rw [trimXml_eq_nil.mpr ((solid_decoded pieces).mpr hblank)]
    rcases last_delivered cData pieces with hnone | ⟨before, p, after, taken, rfl, htaken, hafter⟩
    · rw [field_of_none hnone]
      rfl
    · rw [field_append_cons htaken hafter, trimXml_delivered htaken]
      exact hblank p (List.mem_append_right _ List.mem_cons_self)
  · obtain ⟨taken, htaken⟩ := Option.isSome_iff_exists.mp hsome
    rw [List.forall_mem_append] at hblank
    rw [field_append_cons htaken hafter, trimXml_delivered htaken, List.flatMap_append, List.flatMap_cons, ← List.append_assoc]
    exact (trimXml_around (solid_eq_nil.mp ((solid_decoded before).mpr hblank.1))
      (solid_eq_nil.mp ((solid_decoded after).mpr hblank.2)) _).symm

theorem trimXml_field_iff : trimXml (field cData pieces []) = trimXml (pieces.flatMap Piece.decoded) ↔ Carried cData pieces := by
  refine ⟨fun h => ?_, trimXml_field_of_carried⟩
  rcases last_delivered cData pieces with hnone | ⟨before, p, after, taken, rfl, htaken, hafter⟩
  · rw [field_of_none hnone, show trimXml [] = [] from rfl, eq_comm, trimXml_eq_nil, solid_decoded] at h
    exact .inl h
  · rw [field_append_cons htaken hafter, trimXml_delivered htaken, List.flatMap_append, List.flatMap_cons, ← List.append_assoc] at h
    -- the characters that are not blank are those of `p`, so that the others have none
    have hsolid := congrArg solid h
    rw [solid_trimXml, solid_trimXml, solid_append, solid_append, List.append_assoc] at hsolid
    have hlen := congrArg List.length hsolid
    rw [List.length_append, List.length_append] at hlen
    have hbefore := List.eq_nil_of_length_eq_zero (show (solid (before.flatMap Piece.decoded)).length = 0 by omega)
    have hrest := List.eq_nil_of_length_eq_zero (show (solid (after.flatMap Piece.decoded)).length = 0 by omega)
    refine .inr ⟨before, p, after, rfl, by rw [htaken]; rfl, ?_, hafter⟩
    exact List.forall_mem_append.mpr ⟨(solid_decoded before).mp hbefore, (solid_decoded after).mp hrest⟩

end

/-! The loop over the events of a document. -/

theorem readReport_ok (st : ReportState) (events : List XmlEvent) :
    readReport st (events.map .ok) = .ok (events.foldl ReportState.read st) := by
  induction events generalizing st with
  | nil => rfl
  | cons event events ih => exact ih (st.read event)

/-- What the loop has of a response behind these pieces. -/
def RawCalendarResponse.take (raw : RawCalendarResponse) (parent : Option (List Char)) (content : Content) : RawCalendarResponse :=
  ⟨field false (content.pieces "href".toList parent) raw.href,
    field true (content.pieces "calendar-data".toList parent) raw.calendarData⟩

theorem field_append (cData : Bool) (before after : List Piece) (value : List Char) :
    field cData (before ++ after) value = field cData after (field cData before value) := List.foldl_append

section
variable (raw : RawCalendarResponse) (p : Piece) {parent : Option (List Char)}

theorem pieces_self (name : List Char) : Content.pieces name (some name) (.piece p .nil) = [p] := by
  rw [Content.pieces, if_pos rfl, Content.pieces, List.append_nil]

theorem pieces_of_ne {name : List Char} (h : parent ≠ some name) : Content.pieces name parent (.piece p .nil) = [] := by
  rw [Content.pieces, if_neg h, Content.pieces, List.append_nil]

theorem href_ne : some "href".toList ≠ some "calendar-data".toList := by decide

theorem take_href : raw.take (some "href".toList) (.piece p .nil) = ⟨(p.delivered false).getD raw.href, raw.calendarData⟩ := by
  rw [RawCalendarResponse.take, pieces_self, pieces_of_ne p href_ne]
  rfl

theorem take_calendarData : raw.take (some "calendar-data".toList) (.piece p .nil) =
    ⟨raw.href, (p.delivered true).getD raw.calendarData⟩ := by
  rw [RawCalendarResponse.take, pieces_self, pieces_of_ne p href_ne.symm]
  rfl

theorem take_elsewhere (hhref : parent ≠ some "href".toList)
    (hdata : parent ≠ some "calendar-data".toList) : raw.take parent (.piece p .nil) = raw := by
  rw [RawCalendarResponse.take, pieces_of_ne p hhref, pieces_of_ne p hdata]
  rfl

end

theorem foldl_piece (st : ReportState) (p : Piece) : p.events.foldl ReportState.read st =
    { st with current := st.current.take st.stack.head? (.piece p .nil) } := by
  obtain ⟨stack, current, responses⟩ := st
  dsimp only
  by_cases hhref : stack.head? = some "href".toList
  · obtain ⟨stack, rfl⟩ := List.head?_eq_some_iff.mp hhref
    rw [hhref, take_href]
    cases p with
    | text cs =>
      rw [Piece.events, Piece.delivered]
      split
      · rfl
      · rw [List.foldl_cons, List.foldl_nil, ReportState.read]
        dsimp only
        rw [if_pos rfl]
        rfl
    | cData cs =>
      rw [Piece.events, List.foldl_cons, List.foldl_nil, ReportState.read, hhref, if_neg href_ne]
      rfl
    | ref name value => rfl
  · by_cases hdata : stack.head? = some "calendar-data".toList
    · obtain ⟨stack, rfl⟩ := List.head?_eq_some_iff.mp hdata
      have hne : "calendar-data".toList ≠ "href".toList := fun h => href_ne (congrArg some h.symm)
      rw [hdata, take_calendarData]
      cases p with
      | text cs =>
        rw [Piece.events, Piece.delivered]
        split
        · rfl
        · rw [List.foldl_cons, List.foldl_nil, ReportState.read]
          dsimp only
          rw [if_neg hne, if_pos rfl]
          rfl
      | cData cs =>
        rw [Piece.events, List.foldl_cons, List.foldl_nil, ReportState.read, if_pos hdata]
        rfl
      | ref name value => rfl
    · rw [take_elsewhere current p hhref hdata]
      cases p with
      | text cs =>
        rw [Piece.events]
        split
        · rfl
        · rw [List.foldl_cons, List.foldl_nil, ReportState.read]
          dsimp only
          cases stack with
          | nil => rfl
          | cons tag stack =>
            dsimp only
            rw [if_neg fun h => hhref (congrArg some h), if_neg fun h => hdata (congrArg some h)]
      | cData cs => rw [Piece.events, List.foldl_cons, List.foldl_nil, ReportState.read, if_neg hdata]
      | ref name value => rfl

theorem take_take (raw : RawCalendarResponse) (parent parent' : Option (List Char)) (content rest : Content) :
    (raw.take parent content).take parent' rest =
      ⟨field false (content.pieces "href".toList parent ++ rest.pieces "href".toList parent') raw.href,
        field true (content.pieces "calendar-data".toList parent ++ rest.pieces "calendar-data".toList parent') raw.calendarData⟩ := by
  rw [field_append, field_append]
  rfl

/-- The events of a content without responses leave the elements that are open, and give their pieces. -/
theorem foldl_events {content : Content} (hnone : content.named "response".toList = []) (st : ReportState) :
    content.events.foldl ReportState.read st = { st with current := st.current.take st.stack.head? content } := by
  induction content generalizing st with
  | nil => rfl
  | piece p rest ih =>
    rw [Content.events, List.foldl_append, foldl_piece, ih hnone, take_take]
    simp only [Content.pieces, List.append_nil]
    rfl
  | element name content rest ih ih' =>
    rw [Content.named, List.append_eq_nil_iff] at hnone
    have hname : localName name ≠ "response".toList := by
      intro hname
      rw [if_pos hname] at hnone
      cases hnone.1
    rw [if_neg hname] at hnone
    rw [Content.events, List.cons_append, List.foldl_cons, List.foldl_append, List.foldl_cons]
    have hstart : st.read (.start name) = ⟨localName name :: st.stack, st.current, st.responses⟩ := by
      simp only [ReportState.read, if_neg hname]
    have hstop (current : RawCalendarResponse) :
        ReportState.read ⟨localName name :: st.stack, current, st.responses⟩ (.stop name) = ⟨st.stack, current, st.responses⟩ := by
      simp only [ReportState.read, if_neg hname, List.tail_cons]
    rw [hstart, ih hnone.1, hstop, ih' hnone.2, take_take]
    rfl
  | other rest ih => exact ih hnone st

/-- What is collected of a response. -/
def collected (content : Content) : RawCalendarResponse :=
  RawCalendarResponse.default.take (some "response".toList) content

/-- The events of a document give its responses. -/
theorem foldl_document {document : Content}
    (hflat : ∀ content ∈ document.named "response".toList, content.named "response".toList = []) (st : ReportState) :
    ∃ current, document.events.foldl ReportState.read st =
      ⟨st.stack, current, st.responses ++ (document.named "response".toList).map collected⟩ := by
  induction document generalizing st with
  | nil => exact ⟨st.current, by simp [Content.events, Content.named]⟩
  | piece p rest ih =>
    rw [Content.events, List.foldl_append, foldl_piece]
    exact ih hflat _
  | element name content rest ih ih' =>
    rw [Content.named] at hflat ⊢
    rw [Content.events, List.cons_append, List.foldl_cons, List.foldl_append, List.foldl_cons]
    by_cases hname : localName name = "response".toList
    · rw [if_pos hname] at hflat ⊢
      have hstart : st.read (.start name) = ⟨"response".toList :: st.stack, .default, st.responses⟩ := by
        simp only [ReportState.read, hname, if_true]
      have hstop (current : RawCalendarResponse) :
          ReportState.read ⟨"response".toList :: st.stack, current, st.responses⟩ (.stop name) =
            ⟨st.stack, .default, st.responses ++ [current]⟩ := by
        simp only [ReportState.read, hname, if_true, List.tail_cons]
      rw [hstart, foldl_events (hflat content (List.mem_append_left _ (List.mem_singleton_self _))), hstop]
      obtain ⟨current, hrest⟩ := ih' (fun c hc => hflat c (List.mem_append_right _ hc)) ⟨st.stack, .default, st.responses ++ [_]⟩
      refine ⟨current, hrest.trans ?_⟩
      rw [List.append_assoc, List.map_append]
      rfl
    · rw [if_neg hname] at hflat ⊢
      have hstart : st.read (.start name) = ⟨localName name :: st.stack, st.current, st.responses⟩ := by
        simp only [ReportState.read, if_neg hname]
      have hstop (current : RawCalendarResponse) (responses : List RawCalendarResponse) :
          ReportState.read ⟨localName name :: st.stack, current, responses⟩ (.stop name) = ⟨st.stack, current, responses⟩ := by
        simp only [ReportState.read, if_neg hname, List.tail_cons]
      obtain ⟨inner, hinner⟩ := ih (fun c hc => hflat c (List.mem_append_left _ hc)) ⟨localName name :: st.stack, st.current, st.responses⟩
      rw [hstart, hinner, hstop]
      obtain ⟨current, hrest⟩ := ih' (fun c hc => hflat c (List.mem_append_right _ hc))
        ⟨st.stack, inner, st.responses ++ (content.named "response".toList).map collected⟩
      refine ⟨current, hrest.trans ?_⟩
      rw [List.append_assoc, List.map_append]
  | other rest ih => exact ih hflat st

theorem collectResponses_events (m : Multistatus) : collectResponses m.events = .ok (m.responses.map collected) := by
  obtain ⟨current, hdocument⟩ := foldl_document m.flat ⟨[], .default, []⟩
  rw [collectResponses, Multistatus.events, readReport_ok, hdocument]
  rfl

/-- A report is read whole exactly if the text of each address and each calendar object comes through. -/
theorem readsWhole_iff (decode : List Char → Option (List Char)) (now : Nat) (credential : CalendarProviderCredential)
    (m : Multistatus) : (∃ raws, ReadsWhole decode now credential m raws) ↔
      ∀ content ∈ m.responses,
        Carried false (content.pieces "href".toList (some "response".toList)) ∧
          Carried true (content.pieces "calendar-data".toList (some "response".toList)) := by
  have hwhole (content : Content) : (collected content).Whole content ↔
      Carried false (content.pieces "href".toList (some "response".toList)) ∧
        Carried true (content.pieces "calendar-data".toList (some "response".toList)) :=
    ⟨fun h => ⟨trimXml_field_iff.mp h.href, trimXml_field_iff.mp h.calendarData⟩,
      fun h => ⟨trimXml_field_iff.mpr h.1, trimXml_field_iff.mpr h.2⟩⟩
  have hcollected := collectResponses_events m
  constructor
  · rintro ⟨raws, hraws, hall, -⟩ content hcontent
    obtain rfl := Except.ok.inj (hraws.symm.trans hcollected)
    rw [List.forall₂_map_left_iff, List.forall₂_same] at hall
    exact (hwhole content).mp (hall content hcontent)
  · intro h
    refine ⟨m.responses.map collected, hcollected, ?_, by rw [parseCalendarQueryResponse, hcollected]; rfl⟩
    rw [List.forall₂_map_left_iff, List.forall₂_same]
    exact fun content hcontent => (hwhole content).mpr (h content hcontent)

/-- A calendar object with an ampersand in the title. -/
def ampersandResponse : Content :=
  .element "d:href".toList (.piece (.text "/a.ics".toList) .nil)
    (.element "c:calendar-data".toList
      (.piece (.text "BEGIN:VEVENT\nSUMMARY:A".toList)
        (.piece (.ref "amp".toList ['&']) (.piece (.text "B\nDTSTART:20260414T010000Z".toList) .nil))) .nil)

def ampersandReport : Multistatus where
  document := .element "d:multistatus".toList (.element "d:response".toList ampersandResponse .nil) .nil
  flat := by decide

theorem ampersand_cut : ¬ ∃ raws, ReadsWhole some 0 ⟨"caldav", "team"⟩ ampersandReport raws := by
  rintro ⟨raws, hraws, hwhole, -⟩
  have hcollected : collectResponses ampersandReport.events =
      .ok [⟨"/a.ics".toList, "B\nDTSTART:20260414T010000Z".toList⟩] := rfl
  obtain rfl := Except.ok.inj (hraws.symm.trans hcollected)
  have hresponses : ampersandReport.responses = [ampersandResponse] := rfl
  rw [hresponses] at hwhole
  cases hwhole with
  | cons hfirst => exact absurd hfirst.calendarData (by decide)

end Beetle.Calendar.Caldav
