import Beetle.Wss.Upgrade

/-! Which URLs and headers the device accepts, and which of them bring a second empty line into the request. -/
namespace Beetle.Wss
open Beetle.Lib Beetle.Lib.Http

/-! The pieces of a URL that the device takes apart. -/

/-- A text behind the scheme: the host, the port behind a colon, and the rest from the first delimiter on. -/
structure UrlPieces where
  host : Bytes
  portText : Option Bytes
  tail : Bytes
  host_plain : ∀ b ∈ host, isDelimiter b = false ∧ b ≠ colon
  port_plain : ∀ port ∈ portText, ∀ b ∈ port, isDelimiter b = false
  tail_delimited : ∀ b ∈ tail.head?, isDelimiter b = true

def portPart : Option Bytes → Bytes
  | none => []
  | some port => colon :: port

namespace UrlPieces
variable (u : UrlPieces)

def authority : Bytes := u.host ++ portPart u.portText

def text : Bytes := bytes "wss://" ++ (u.authority ++ u.tail)

def port : Option Nat :=
  match u.portText with
  | none => some defaultPort
  | some port => parsePort port

theorem authority_plain : ∀ b ∈ u.authority, isDelimiter b = false := by
  intro b hb
  rcases List.mem_append.mp hb with hb | hb
  · exact (u.host_plain b hb).1
  · cases hport : u.portText with
    | none =>
      rw [hport] at hb
      cases hb
    | some port =>
      rw [hport] at hb
      rcases List.mem_cons.mp hb with rfl | hb
      · decide
      · exact u.port_plain port hport b hb

theorem parseUrl_text : parseUrl u.text =
    match u.port with
    | none => none
    | some port =>
      if u.host = [] ∨ 91 ∈ u.host ∨ 93 ∈ u.host then none else some ⟨u.host, hostHeaderOf u.host port, pathOf u.tail, port⟩ := by
  have hplain : ∀ b ∈ u.authority, (!isDelimiter b) = true := fun b hb => by rw [u.authority_plain b hb]; rfl
  have htail : u.tail.takeWhile (!isDelimiter ·) = [] ∧ u.tail.dropWhile (!isDelimiter ·) = u.tail := by
    cases htail : u.tail with
    | nil => exact ⟨rfl, rfl⟩
    | cons b rest =>
      have hb := u.tail_delimited b (by rw [htail]; rfl)
      simp [hb]
  have hhost : ∀ b ∈ u.host, decide (b ≠ colon) = true := fun b hb => decide_eq_true (u.host_plain b hb).2
  rw [text, parseUrl, isPrefixOf?_append]
  dsimp only
  rw [List.takeWhile_append_of_pos hplain, List.dropWhile_append_of_pos hplain, htail.1, htail.2, List.append_nil, authority]
  cases hport : u.portText with
  | none =>
    have hcolon : colon ∉ u.host := fun hmem => (u.host_plain colon hmem).2 rfl
    rw [portPart, List.append_nil, List.takeWhile_eq_self_iff.mpr hhost, if_neg hcolon, port, hport]
  | some portText =>
    have hself : u.host ++ portPart (some portText) = u.host ++ colon :: portText := rfl
    have htake : (u.host ++ colon :: portText).takeWhile (· ≠ colon) = u.host := by
      rw [List.takeWhile_append_of_pos hhost]
      simp
    have hdrop : (u.host ++ colon :: portText).drop (u.host.length + 1) = portText := by
      rw [List.drop_append, List.drop_eq_nil_of_le (Nat.le_succ _), Nat.add_sub_cancel_left]
      rfl
    rw [hself, htake, if_pos (by simp), hdrop, port, hport]
    all_goals rfl

end UrlPieces

theorem exists_pieces {url : Bytes} {parsed : WssUrl} (h : parseUrl url = some parsed) : ∃ u : UrlPieces, u.text = url := by
  unfold parseUrl at h
  split at h
  · cases h
  · rename_i cursor hscheme
    obtain rfl := isPrefixOf?_eq_some_iff.mp hscheme
    have hhost : ∀ b ∈ cursor.takeWhile (!isDelimiter ·), isDelimiter b = false := fun b hb => by
      simpa using List.mem_takeWhile_imp hb
    have htail : ∀ b ∈ (cursor.dropWhile (!isDelimiter ·)).head?, isDelimiter b = true := by
      intro b hb
      have hnot := List.head?_dropWhile_not (!isDelimiter ·) cursor
      rw [Option.mem_def.mp hb] at hnot
      simpa using hnot
    have hsplit : cursor.takeWhile (!isDelimiter ·) ++ cursor.dropWhile (!isDelimiter ·) = cursor :=
      List.takeWhile_append_dropWhile
    by_cases hcolon : colon ∈ cursor.takeWhile (!isDelimiter ·)
    · obtain ⟨host, portText, hparts, hnot⟩ := List.eq_append_cons_of_mem hcolon
      rw [hparts] at hhost hsplit
      refine ⟨⟨host, some portText, _, fun b hb => ⟨hhost b (List.mem_append_left _ hb), fun heq => hnot (heq ▸ hb)⟩, ?_, htail⟩, ?_⟩
      · intro port hport b hb
        obtain rfl := Option.some.inj hport
        exact hhost b (List.mem_append_right _ (.tail _ hb))
      · simp only [UrlPieces.text, UrlPieces.authority, portPart, hsplit]
    · refine ⟨⟨_, none, _, fun b hb => ⟨hhost b hb, fun heq => hcolon (heq ▸ hb)⟩, nofun, htail⟩, ?_⟩
      simp only [UrlPieces.text, UrlPieces.authority, portPart, List.append_nil, hsplit]

/-! Where the host brings in an empty line. -/

theorem plain_of_mem_decimal {n : Nat} {b : UInt8} (h : b ∈ utf8 (decimal n)) : b ≠ cr ∧ b ≠ lf := by
  have hdigit {c : Char} (hc : c.isDigit = false) : c ∉ decimal n := fun hmem => by
    rw [isDigit_of_mem_decimal hmem] at hc
    cases hc
  constructor
  · rintro rfl
    exact cr_notMem_utf8 (hdigit rfl) h
  · rintro rfl
    exact lf_notMem_utf8 (hdigit rfl) h

theorem emptyLine_hostHeader_iff (host : Bytes) (port : Nat) : crlf ++ crlf <:+: hostHeaderOf host port ++ crlf ↔
    crlf ++ crlf <:+: host ∨ (port = defaultPort ∧ crlf <:+ host) := by
  rw [← run_within_eq_none_iff, ← run_within_eq_none_iff, hostHeaderOf]
  cases hhost : run .within host with
  | none =>
    refine iff_of_true ?_ (.inl rfl)
    split
    · rw [run_append, hhost]
      rfl
    · rw [List.append_assoc, run_append, hhost]
      rfl
  | some place =>
    rw [or_iff_right (Option.some_ne_none _), ← run_within_iff hhost]
    split
    · rename_i hport
      rw [run_append_of_eq hhost, and_iff_right hport]
      cases place with
      | lineStart => exact iff_of_true rfl rfl
      | within => exact iff_of_false nofun nofun
      | afterCr => exact iff_of_false nofun nofun
      | lineStartCr => exact iff_of_false nofun nofun
    · rename_i hport
      have hcolon : step place colon = some .within := step_of_ne (by decide) (by decide)
      refine iff_of_false ?_ fun h => hport h.1
      rw [List.append_assoc, run_append_of_eq hhost, List.cons_append, run_cons, hcolon, Option.bind_some,
        run_append_of_eq (run_of_forall fun b hb => plain_of_mem_decimal hb)]
      exact Option.some_ne_none _

/-- The target brings in an empty line that is in the text up to the fragment. -/
theorem emptyLine_pathOf_iff (tail : Bytes) : crlf ++ crlf <:+: pathOf tail ↔ crlf ++ crlf <:+: tail.takeWhile (· ≠ hash) := by
  cases tail with
  | nil => exact iff_of_false (by decide) (by decide)
  | cons b rest =>
    rw [pathOf]
    split
    · rename_i hb
      subst hb
      exact iff_of_false (by decide) (by simp [crlf])
    · rfl

/-- Neither the text up to the fragment nor the host holds an empty line, nor does the host end with the end of a line that
its header then ends with; and the headers do not begin with one. -/
structure UrlPieces.Clean (u : UrlPieces) (extraHeaders : Option Bytes) : Prop where
  target : ¬ crlf ++ crlf <:+: u.tail.takeWhile (· ≠ hash)
  host : ¬ crlf ++ crlf <:+: u.host
  hostEnd : u.port = some defaultPort → ¬ crlf <:+ u.host
  headers : ∀ extra ∈ extraHeaders, ¬ crlf <+: extra

/-- Any URL that is accepted, with any headers. -/
theorem onlyLastIsEmpty_connect_iff {u : UrlPieces} {extraHeaders : Option Bytes} {randomKey : Bytes} {c : Connected}
    (h : connect u.text extraHeaders randomKey = some c) : OnlyLastIsEmpty c.request ↔ u.Clean extraHeaders := by
  unfold connect at h
  rw [u.parseUrl_text] at h
  cases hport : u.port with
  | none =>
    rw [hport] at h
    cases h
  | some port =>
    rw [hport] at h
    dsimp only at h
    split at h
    · cases h
    · rename_i parsed hparsed
      split at hparsed
      · cases hparsed
      · obtain rfl := Option.some.inj hparsed
        obtain ⟨request, hrequest, rfl⟩ := Option.map_eq_some_iff.mp h
        rw [onlyLastIsEmpty_request_iff hrequest, emptyLine_pathOf_iff, emptyLine_hostHeader_iff, not_or, not_and]
        constructor
        · rintro ⟨htarget, ⟨hhost, hend⟩, hextra⟩
          exact ⟨htarget, hhost, fun heq => hend (Option.some.inj (hport.symm.trans heq)), hextra⟩
        · rintro ⟨htarget, hhost, hend, hextra⟩
          exact ⟨htarget, ⟨hhost, fun heq => hend (by rw [hport, heq])⟩, hextra⟩

end Beetle.Wss
