import Beetle.Error
import Beetle.Lib.JsonRead
import Beetle.Lib.Lowercase

/-! The check that keeps the HTTP tools away from private addresses. -/
namespace Beetle.Tools
open Beetle.Lib

def parseIpv4 (host : List Char) : Option (Nat × Nat × Nat × Nat) :=
  match host.splitOn '.' with
  | [a, b, c, d] => do
    let a ← parseU8 a
    let b ← parseU8 b
    let c ← parseU8 c
    let d ← parseU8 d
    return (a, b, c, d)
  | _ => none

/-- The check of a host, in lower case. -/
def isPrivateHost (host : List Char) : Bool :=
  if host = [] then true
  else if host = "localhost".toList ∨ host = "127.0.0.1".toList ∨ host = "::1".toList ∨ host = "[::1]".toList then true
  else
    match parseIpv4 host with
    | some (a, b, _, _) =>
      a == 10 || (a == 172 && 16 ≤ b && b ≤ 31) || (a == 192 && b == 168) || (a == 169 && b == 254) || a == 0
    | none => false

def isPrivateUrl (tables : CaseTables) (url : List Char) : Bool :=
  let urlLower := tables.toLowercase url
  match ("https://".toList.isPrefixOf? urlLower).or ("http://".toList.isPrefixOf? urlLower) with
  | some afterScheme => isPrivateHost ((afterScheme.takeWhile (· ≠ '/')).takeWhile (· ≠ ':'))
  | none => true

/-- The check of the URL in `HttpRequestTool::execute`. -/
def httpRequestCheck (tables : CaseTables) (url : List Char) : Except Error Unit :=
  if isPrivateUrl tables url then
    .error (.config "private/internal URLs are blocked for security" "tool_http_request")
  else .ok ()

/-- What `fetch_public_page_payload` answers without a request. -/
def fetchUnsupported (tables : CaseTables) (url : List Char) : Option String :=
  if isPrivateUrl tables url then some "private/internal URLs are blocked for security" else none

/-! URLs as RFC 3986 has them. -/

/-- What follows the scheme and the two slashes. -/
def afterHttpScheme (url : List Char) : Option (List Char) :=
  if (url.take 8).map Char.toLower = "https://".toList then some (url.drop 8)
  else if (url.take 7).map Char.toLower = "http://".toList then some (url.drop 7)
  else none

def authority (rest : List Char) : List Char := rest.takeWhile (· ∉ ['/', '?', '#'])

/-- What is before the last at sign of an authority that has one. -/
def userinfo (authority : List Char) : List Char := (authority.rdropWhile (· ≠ '@')).dropLast

def hostPort (authority : List Char) : List Char := authority.rtakeWhile (· ≠ '@')

/-- The host, without the port and without the brackets of an IPv6 address. -/
def rfcHost (rest : List Char) : List Char :=
  let hostPort := hostPort (authority rest)
  if hostPort.head? = some '[' then hostPort.tail.takeWhile (· ≠ ']') else hostPort.takeWhile (· ≠ ':')

def decimal (n : Nat) : List Char := (toString n).toList

def dottedQuad (a b c d : Nat) : List Char := decimal a ++ '.' :: (decimal b ++ '.' :: (decimal c ++ '.' :: decimal d))

/-- The loopback and private hosts. -/
def PrivateHost (host : List Char) : Prop :=
  host.map Char.toLower = "localhost".toList ∨ host = "::1".toList ∨
    ∃ a b c d, a < 256 ∧ b < 256 ∧ c < 256 ∧ d < 256 ∧ host = dottedQuad a b c d ∧
      (a = 127 ∨ a = 10 ∨ (a = 172 ∧ 16 ≤ b ∧ b ≤ 31) ∨ (a = 192 ∧ b = 168) ∨ (a = 169 ∧ b = 254))

/-! Which of them the check sees. -/

/-- A loopback address other than the one that is compared with. -/
def MissedLoopback (host : List Char) : Prop :=
  ∃ b c d, b < 256 ∧ c < 256 ∧ d < 256 ∧ host = dottedQuad 127 b c d ∧ host ≠ dottedQuad 127 0 0 1

/-- The host stands right after the slashes, without brackets, and a port, a slash or the
end of the URL comes after it. -/
def HostInFront (rest : List Char) : Prop :=
  '@' ∉ authority rest ∧ (authority rest).head? ≠ some '[' ∧
    (':' ∈ authority rest ∨ ∀ c ∈ (rest.dropWhile (· ∉ ['/', '?', '#'])).head?, c = '/')

/-- The user name, before a password, is empty or itself a host that is refused. -/
def UserRefused (rest : List Char) : Prop :=
  '@' ∈ authority rest ∧ ':' ∈ userinfo (authority rest) ∧
    isPrivateHost (((userinfo (authority rest)).takeWhile (· ≠ ':')).map Char.toLower) = true

/-- All that the check looks at. -/
@[grind =] def front (rest : List Char) : List Char := rest.takeWhile (· ∉ [':', '/'])

theorem separator_colon_slash : ∀ sep ∈ [':', '/'], Separator sep := by
  intro sep hsep
  rcases List.mem_pair.mp hsep with rfl | rfl
  · exact ⟨by decide, by decide⟩
  · exact ⟨by decide, by decide⟩

/-- The check of a URL is that of its front. -/
theorem isPrivateUrl_front (tables : CaseTables) {url rest : List Char} (h : afterHttpScheme url = some rest) :
    ∃ out, CaseTables.Lowered (front rest) out ∧ isPrivateUrl tables url = isPrivateHost out := by
  have hscheme : ∃ scheme, url = scheme ++ rest ∧
      (scheme.map Char.toLower = "https://".toList ∨ scheme.map Char.toLower = "http://".toList) := by
    unfold afterHttpScheme at h
    split at h
    · rename_i hhttps
      obtain rfl := Option.some.inj h
      exact ⟨url.take 8, (List.take_append_drop 8 url).symm, .inl hhttps⟩
    · split at h
      · rename_i hhttp
        obtain rfl := Option.some.inj h
        exact ⟨url.take 7, (List.take_append_drop 7 url).symm, .inr hhttp⟩
      · cases h
  obtain ⟨scheme, rfl, hscheme⟩ := hscheme
  obtain ⟨before, after, hout, hbefore, hafter⟩ := (tables.lowered_toLowercase (scheme ++ rest)).append
  have hascii : ∀ c ∈ scheme, c.toNat < 128 := by
    rcases hscheme with hscheme | hscheme
    · exact ascii_of_map_toLower hscheme (by decide)
    · exact ascii_of_map_toLower hscheme (by decide)
  have hstrip : ("https://".toList.isPrefixOf? (before ++ after)).or ("http://".toList.isPrefixOf? (before ++ after)) =
      some after := by
    rw [hbefore.of_ascii hascii]
    rcases hscheme with hscheme | hscheme
    · rw [hscheme, isPrefixOf?_append]
      rfl
    · rw [hscheme, isPrefixOf?_append]
      rfl
  refine ⟨after.takeWhile (· ∉ [':', '/']), hafter.takeWhile_not separator_colon_slash, ?_⟩
  simp only [isPrivateUrl, hout, hstrip, List.takeWhile_takeWhile]
  congr 2
  funext c
  simp [and_comm]

/-- Whether a refused host can have a character, where it has no colon. -/
def isHostChar (c : Char) : Bool := c ∈ "localhost.+".toList || c.isDigit

variable {c : Char} {host : List Char} {cs : List Char} {rest : List Char}

theorem not_isHostChar_of_not_ascii (hc : 128 ≤ c.toNat) : isHostChar c = false := by
  have hall : ∀ d ∈ "localhost.+".toList, d.toNat < 128 := by decide
  have hmem : c ∉ "localhost.+".toList := fun hmem => by
    have hlt := hall c hmem
    omega
  have hdigit : c.isDigit = false := by
    rw [Bool.eq_false_iff]
    intro hdigit
    have hle := (Char.isDigit_iff_toNat.mp hdigit).2
    have hval : '9'.toNat = 57 := rfl
    omega
  rw [isHostChar, decide_eq_false hmem, hdigit]
  rfl

theorem parseIpv4_chars {octets : Nat × Nat × Nat × Nat} (h : parseIpv4 host = some octets) :
    ∀ c ∈ host, isHostChar c = true := by
  unfold parseIpv4 at h
  split at h
  · rename_i a b c d hsplit
    obtain ⟨a', ha, h⟩ := Option.bind_eq_some_iff.mp h
    obtain ⟨b', hb, h⟩ := Option.bind_eq_some_iff.mp h
    obtain ⟨c', hc, h⟩ := Option.bind_eq_some_iff.mp h
    obtain ⟨d', hd, -⟩ := Option.bind_eq_some_iff.mp h
    have hjoin : ['.'].intercalate (host.splitOn '.') = host := List.intercalate_splitOn '.'
    rw [hsplit] at hjoin
    have hpart {part : List Char} {n : Nat} (hparse : parseU8 part = some n) :
        ∀ c ∈ part, isHostChar c = true := by
      intro c hmem
      rcases digits_of_parseUnsigned hparse c hmem with rfl | hdigit
      · decide
      · simp [isHostChar, hdigit]
    intro x hx
    rw [← hjoin] at hx
    simp only [List.intercalate, List.intersperse, List.flatten_cons, List.flatten_nil, List.mem_append,
      List.mem_singleton, List.append_nil] at hx
    rcases hx with hx | hx | hx | hx | hx | hx | hx
    · exact hpart ha x hx
    · subst hx
      decide
    · exact hpart hb x hx
    · subst hx
      decide
    · exact hpart hc x hx
    · subst hx
      decide
    · exact hpart hd x hx
  · cases h

theorem isPrivateHost_chars (hcolon : ':' ∉ host) (h : isPrivateHost host = true) :
    ∀ c ∈ host, isHostChar c = true := by
  unfold isPrivateHost at h
  split at h
  · rename_i hnil
    simp [hnil]
  · split at h
    · rename_i hname
      rcases hname with rfl | rfl | rfl | rfl
      · decide
      · decide
      · exact absurd (by decide) hcolon
      · exact absurd (by decide) hcolon
    · split at h
      · rename_i a b c d hparse
        exact parseIpv4_chars hparse
      · cases h

/-- No text with a character outside ASCII is refused, however it is lower-cased. -/
theorem not_isPrivateHost_of_not_ascii {cs out : List Char} (h : CaseTables.Lowered cs out) (hcs : ':' ∉ cs)
    (hc : c ∈ cs) (hnot : 128 ≤ c.toNat) : isPrivateHost out = false := by
  have hcolon : ':' ∉ out := by rwa [h.mem_iff ⟨by decide, by decide⟩]
  obtain ⟨d, hd, hchar⟩ := h.exists_of_not_ascii hc hnot
  rw [Bool.eq_false_iff]
  intro hprivate
  have hhost := isPrivateHost_chars hcolon hprivate d hd
  rcases hchar with hwide | rfl | rfl
  · rw [not_isHostChar_of_not_ascii hwide] at hhost
    cases hhost
  · exact absurd hhost (by decide)
  · exact absurd hhost (by decide)

/-- What is lower-cased as a whole is refused as it is character by character. -/
theorem isPrivateHost_lowered {cs out : List Char} (h : CaseTables.Lowered cs out) (hcs : ':' ∉ cs) :
    isPrivateHost out = isPrivateHost (cs.map Char.toLower) := by
  by_cases hascii : ∀ c ∈ cs, c.toNat < 128
  · rw [h.of_ascii hascii]
  · push Not at hascii
    obtain ⟨c, hc, hnot⟩ := hascii
    rw [not_isPrivateHost_of_not_ascii h hcs hc hnot,
      not_isPrivateHost_of_not_ascii (CaseTables.Lowered.map_toLower cs) hcs hc hnot]

/-- A text with another separator in it is not refused. -/
theorem not_isPrivateHost_of_mem (hcs : ':' ∉ cs) {sep : Char} (hsep : Separator sep)
    (hhost : isHostChar sep = false) (hmem : sep ∈ cs) : isPrivateHost (cs.map Char.toLower) = false := by
  have hlower := CaseTables.Lowered.map_toLower cs
  have hcolon : ':' ∉ cs.map Char.toLower := by rwa [hlower.mem_iff ⟨by decide, by decide⟩]
  rw [Bool.eq_false_iff]
  intro hprivate
  have htrue := isPrivateHost_chars hcolon hprivate sep ((hlower.mem_iff hsep).mpr hmem)
  rw [hhost] at htrue
  cases htrue

theorem front_colon (rest : List Char) : ':' ∉ front rest := by
  intro hmem
  have hnot := List.mem_takeWhile_imp hmem
  simp at hnot

theorem eq_authority_append (rest : List Char) :
    rest = authority rest ++ rest.dropWhile (· ∉ ['/', '?', '#']) := (List.takeWhile_append_dropWhile).symm

theorem authority_char (hc : c ∈ authority rest) : c ≠ '/' ∧ c ≠ '?' ∧ c ≠ '#' := by
  simpa using List.mem_takeWhile_imp hc

/-- What is before the last at sign, and what is after it. -/
theorem eq_userinfo_append {authority : List Char} (hat : '@' ∈ authority) :
    authority = userinfo authority ++ '@' :: hostPort authority := by
  have hne : authority.rdropWhile (· ≠ '@') ≠ [] := by
    rw [Ne, List.rdropWhile_eq_nil_iff]
    intro hall
    simpa using hall '@' hat
  have hlast : (authority.rdropWhile (· ≠ '@')).getLast hne = '@' := by
    simpa using List.rdropWhile_last_not (· ≠ '@') authority hne
  have hfront : authority.rdropWhile (· ≠ '@') = userinfo authority ++ ['@'] := by
    have hdrop := (List.dropLast_append_getLast hne).symm
    rwa [hlast] at hdrop
  calc authority = authority.rdropWhile (· ≠ '@') ++ hostPort authority := List.rdropWhile_append_rtakeWhile.symm
    _ = (userinfo authority ++ ['@']) ++ hostPort authority := by rw [hfront]
    _ = userinfo authority ++ '@' :: hostPort authority := by simp

theorem front_append (hcs : ∀ c ∈ cs, c ≠ ':' ∧ c ≠ '/') (rest : List Char) :
    front (cs ++ rest) = cs ++ front rest := by
  apply List.takeWhile_append_of_pos
  intro c hc
  simpa using hcs c hc

/-- Up to a colon before any slash. -/
theorem front_append_of_colon (hslash : '/' ∉ cs) (hcolon : ':' ∈ cs) (rest : List Char) :
    front (cs ++ rest) = cs.takeWhile (· ≠ ':') := by
  obtain ⟨before, after, rfl, hbefore⟩ := List.eq_append_cons_of_mem hcolon
  have hchars : ∀ c ∈ before, c ≠ ':' ∧ c ≠ '/' := by
    intro c hc
    constructor
    · rintro rfl
      exact hbefore hc
    · rintro rfl
      exact hslash (List.mem_append_left _ hc)
  rw [List.append_assoc, front_append hchars, List.takeWhile_append_of_pos (by simpa using fun c hc => (hchars c hc).1)]
  simp [front]

/-- Where there is an at sign and a refused front, the front is the user name. -/
theorem userRefused_iff (hat : '@' ∈ authority rest) :
    isPrivateHost ((front rest).map Char.toLower) = true ↔ UserRefused rest := by
  have hrest : rest = userinfo (authority rest) ++ '@' ::
      (hostPort (authority rest) ++ rest.dropWhile (· ∉ ['/', '?', '#'])) := by
    have happend := eq_authority_append rest
    rwa [eq_userinfo_append hat, List.append_assoc, List.cons_append] at happend
  have hslash : '/' ∉ userinfo (authority rest) := by
    intro hmem
    have hauthority : '/' ∈ authority rest := by
      rw [eq_userinfo_append hat]
      exact List.mem_append_left _ hmem
    exact (authority_char hauthority).1 rfl
  by_cases hcolon : ':' ∈ userinfo (authority rest)
  · have hfront : front rest = (userinfo (authority rest)).takeWhile (· ≠ ':') := by
      rw [hrest, front_append_of_colon hslash hcolon, ← hrest]
    rw [hfront]
    exact ⟨fun h => ⟨hat, hcolon, h⟩, fun h => h.2.2⟩
  · have hfront : '@' ∈ front rest := by
      rw [hrest, front_append]
      · exact List.mem_append_right _ (by simp [front])
      · intro c hc
        exact ⟨fun h => hcolon (h ▸ hc), fun h => hslash (h ▸ hc)⟩
    rw [not_isPrivateHost_of_mem (front_colon rest) ⟨by decide, by decide⟩ (by decide) hfront]
    exact ⟨fun h => absurd h Bool.false_ne_true, fun h => absurd h.2.1 hcolon⟩

/-- Where there is none, a refused front is the host. -/
theorem front_eq_rfcHost (h : HostInFront rest) : front rest = rfcHost rest := by
  obtain ⟨hat, hbracket, hnext⟩ := h
  have hhostPort : hostPort (authority rest) = authority rest := by
    rw [hostPort, List.rtakeWhile_eq_self_iff]
    intro c hc
    exact decide_eq_true fun hc' => hat (hc' ▸ hc)
  have hhost : rfcHost rest = (authority rest).takeWhile (· ≠ ':') := by
    rw [rfcHost, hhostPort, if_neg hbracket]
  have hslash : '/' ∉ authority rest := fun hmem => (authority_char hmem).1 rfl
  rw [hhost]
  by_cases hcolon : ':' ∈ authority rest
  · rw [eq_authority_append rest, front_append_of_colon hslash hcolon, ← eq_authority_append rest]
  · have hall : (authority rest).takeWhile (· ≠ ':') = authority rest := by
      rw [List.takeWhile_eq_self_iff]
      intro c hc
      exact decide_eq_true fun hc' => hcolon (hc' ▸ hc)
    have hend : front (rest.dropWhile (· ∉ ['/', '?', '#'])) = [] := by
      cases hdrop : rest.dropWhile (· ∉ ['/', '?', '#']) with
      | nil => rfl
      | cons c tail =>
        obtain rfl : c = '/' := hnext.resolve_left hcolon c (by rw [hdrop]; rfl)
        rfl
    rw [hall]
    conv_lhs => rw [eq_authority_append rest]
    rw [front_append, hend, List.append_nil]
    intro c hc
    exact ⟨fun h => hcolon (h ▸ hc), fun h => hslash (h ▸ hc)⟩

/-- Otherwise a bracket, a question mark or a hash is in the front. -/
theorem not_isPrivateHost_front (hat : '@' ∉ authority rest) (h : ¬ HostInFront rest) :
    isPrivateHost ((front rest).map Char.toLower) = false := by
  by_cases hbracket : (authority rest).head? = some '['
  · obtain ⟨tail, htail⟩ := List.head?_eq_some_iff.mp hbracket
    have hmem : '[' ∈ front rest := by
      rw [eq_authority_append rest, htail]
      simp [front]
    exact not_isPrivateHost_of_mem (front_colon rest) ⟨by decide, by decide⟩ (by decide) hmem
  · have hnext : ':' ∉ authority rest ∧ ∃ c, (rest.dropWhile (· ∉ ['/', '?', '#'])).head? = some c ∧ c ≠ '/' := by
      constructor
      · exact fun hcolon => h ⟨hat, hbracket, .inl hcolon⟩
      · by_contra hnone
        push Not at hnone
        exact h ⟨hat, hbracket, .inr hnone⟩
    obtain ⟨hcolon, c, hc, hslash⟩ := hnext
    obtain ⟨tail, htail⟩ := List.head?_eq_some_iff.mp hc
    have hchar : c = '?' ∨ c = '#' := by
      have hstop := List.head?_dropWhile_not (· ∉ ['/', '?', '#']) rest
      rw [hc] at hstop
      simpa [hslash, or_iff_not_imp_left] using hstop
    have hmem : c ∈ front rest := by
      rw [eq_authority_append rest, front_append, htail]
      · refine List.mem_append_right _ ?_
        rcases hchar with rfl | rfl
        · simp [front]
        · simp [front]
      · intro d hd
        exact ⟨fun h => hcolon (h ▸ hd), (authority_char hd).1⟩
    rcases hchar with rfl | rfl
    · exact not_isPrivateHost_of_mem (front_colon rest) ⟨by decide, by decide⟩ (by decide) hmem
    · exact not_isPrivateHost_of_mem (front_colon rest) ⟨by decide, by decide⟩ (by decide) hmem

/-! Dotted quads. -/

theorem decimal_eq (n : Nat) : decimal n = Lib.decimal n := String.toList_ofList

theorem toLower_of_isDigit (h : c.isDigit = true) : c.toLower = c := by
  have hle := (Char.isDigit_iff_toNat.mp h).2
  refine dif_neg fun hupper => ?_
  have hge : 65 ≤ c.toNat := UInt32.le_iff_toNat_le.mp hupper.1
  exact absurd (hge.trans hle) (by decide)

theorem byte_digits {n : Nat} (h : n < 256) :
    '.' ∉ decimal n ∧ parseU8 (decimal n) = some n ∧ (decimal n).map Char.toLower = decimal n := by
  rw [decimal_eq]
  refine ⟨fun hdot => absurd (isDigit_of_mem_decimal hdot) (by decide), parseUnsigned_decimal h, ?_⟩
  rw [List.map_congr_left fun c hc => toLower_of_isDigit (isDigit_of_mem_decimal hc), List.map_id']

section
variable {a b c d : Nat} (ha : a < 256) (hb : b < 256) (hc : c < 256) (hd : d < 256)
include ha hb hc hd

theorem parseIpv4_dottedQuad : parseIpv4 (dottedQuad a b c d) = some (a, b, c, d) := by
  have hsplit : (dottedQuad a b c d).splitOn '.' = [decimal a, decimal b, decimal c, decimal d] := by
    rw [dottedQuad, List.splitOn_append_cons_self_of_not_mem (byte_digits ha).1,
      List.splitOn_append_cons_self_of_not_mem (byte_digits hb).1,
      List.splitOn_append_cons_self_of_not_mem (byte_digits hc).1,
      List.splitOn_eq_singleton (byte_digits hd).1]
  simp only [parseIpv4, hsplit, (byte_digits ha).2.1, (byte_digits hb).2.1, (byte_digits hc).2.1,
    (byte_digits hd).2.1]
  rfl

theorem map_toLower_dottedQuad : (dottedQuad a b c d).map Char.toLower = dottedQuad a b c d := by
  simp only [dottedQuad, List.map_append, List.map_cons, (byte_digits ha).2.2, (byte_digits hb).2.2,
    (byte_digits hc).2.2, (byte_digits hd).2.2]
  rfl

end

/-- The quads that the check refuses. -/
theorem isPrivateHost_of_parse {a b c d : Nat} (h : parseIpv4 host = some (a, b, c, d)) :
    isPrivateHost host = true ↔ host = "127.0.0.1".toList ∨
      a = 10 ∨ (a = 172 ∧ 16 ≤ b ∧ b ≤ 31) ∨ (a = 192 ∧ b = 168) ∨ (a = 169 ∧ b = 254) ∨ a = 0 := by
  have hother {text : List Char} (htext : parseIpv4 text = none) : host ≠ text := by
    rintro rfl
    rw [h] at htext
    cases htext
  have hranges : isPrivateHost host = true ↔ host = "127.0.0.1".toList ∨
      (a == 10 || (a == 172 && 16 ≤ b && b ≤ 31) || (a == 192 && b == 168) || (a == 169 && b == 254) || a == 0) = true := by
    unfold isPrivateHost
    rw [if_neg (hother (by decide))]
    split
    · rename_i hname
      refine ⟨fun _ => .inl ?_, fun _ => rfl⟩
      rcases hname with hname | hname | hname | hname
      · exact absurd hname (hother (by decide))
      · exact hname
      · exact absurd hname (hother (by decide))
      · exact absurd hname (hother (by decide))
    · rename_i hname
      rw [h]
      exact ⟨fun hrange => .inr hrange, fun hrange => hrange.resolve_left fun hlocal => hname (.inr (.inl hlocal))⟩
  rw [hranges]
  refine or_congr Iff.rfl ?_
  simp [or_assoc, and_assoc]

theorem isPrivateHost_dottedQuad {a b c d : Nat} (ha : a < 256) (hb : b < 256) (hc : c < 256) (hd : d < 256) :
    isPrivateHost (dottedQuad a b c d) = true ↔ dottedQuad a b c d = dottedQuad 127 0 0 1 ∨
      a = 10 ∨ (a = 172 ∧ 16 ≤ b ∧ b ≤ 31) ∨ (a = 192 ∧ b = 168) ∨ (a = 169 ∧ b = 254) ∨ a = 0 := by
  have hlocal : "127.0.0.1".toList = dottedQuad 127 0 0 1 := by decide
  rw [isPrivateHost_of_parse (parseIpv4_dottedQuad ha hb hc hd), hlocal]

/-- Of the hosts without a colon only the other loopback addresses are missed. -/
theorem isPrivateHost_of_private (h : PrivateHost host) (hcolon : ':' ∉ host) :
    isPrivateHost (host.map Char.toLower) = true ↔ ¬ MissedLoopback host := by
  rcases h with hlocal | rfl | ⟨a, b, c, d, ha, hb, hc, hd, rfl, hrange⟩
  · have hprivate : isPrivateHost "localhost".toList = true := by decide
    rw [hlocal]
    refine ⟨fun _ => ?_, fun _ => hprivate⟩
    rintro ⟨b, c, d, hb, hc, hd, rfl, -⟩
    rw [map_toLower_dottedQuad (by omega) hb hc hd] at hlocal
    have hparse := parseIpv4_dottedQuad (show 127 < 256 by omega) hb hc hd
    rw [hlocal] at hparse
    exact absurd hparse (by rw [show parseIpv4 "localhost".toList = none by decide]; exact nofun)
  · exact absurd (by decide) hcolon
  · rw [map_toLower_dottedQuad ha hb hc hd, isPrivateHost_dottedQuad ha hb hc hd]
    constructor
    · rintro hrefused ⟨b', c', d', hb', hc', hd', heq, hne⟩
      have hparse := parseIpv4_dottedQuad ha hb hc hd
      rw [heq, parseIpv4_dottedQuad (by omega) hb' hc' hd'] at hparse
      obtain ⟨rfl, -⟩ := Prod.mk.inj (Option.some.inj hparse)
      rcases hrefused with hsame | hrefused
      · exact hne hsame
      · omega
    · intro hseen
      by_cases hloop : a = 127
      · subst hloop
        refine .inl ?_
        by_contra hne
        exact hseen ⟨b, c, d, hb, hc, hd, rfl, hne⟩
      · exact .inr (by omega)

/-- The check refuses a private host that it sees, or a user name. -/
theorem private_url_refused_iff (tables : CaseTables) {url rest : List Char} (hurl : afterHttpScheme url = some rest)
    (hprivate : PrivateHost (rfcHost rest)) :
    (isPrivateUrl tables url = true ∧ (∃ e, httpRequestCheck tables url = .error e) ∧
      (fetchUnsupported tables url).isSome) ↔
    (HostInFront rest ∧ ¬ MissedLoopback (rfcHost rest)) ∨ UserRefused rest := by
  have hcheck : (isPrivateUrl tables url = true ∧ (∃ e, httpRequestCheck tables url = .error e) ∧
      (fetchUnsupported tables url).isSome) ↔ isPrivateUrl tables url = true := by
    refine ⟨fun h => h.1, fun h => ⟨h, ?_, ?_⟩⟩
    · rw [httpRequestCheck, if_pos h]
      exact ⟨_, rfl⟩
    · rw [fetchUnsupported, if_pos h]
      rfl
  obtain ⟨out, hout, hsame⟩ := isPrivateUrl_front tables hurl
  rw [hcheck, hsame, isPrivateHost_lowered hout (front_colon rest)]
  by_cases hat : '@' ∈ authority rest
  · rw [userRefused_iff hat]
    exact ⟨.inr, fun h => h.resolve_left fun hfront => hfront.1.1 hat⟩
  · have huser : ¬ UserRefused rest := fun h => hat h.1
    by_cases hfront : HostInFront rest
    · have hcolon : ':' ∉ rfcHost rest := front_eq_rfcHost hfront ▸ front_colon rest
      rw [front_eq_rfcHost hfront, isPrivateHost_of_private hprivate hcolon]
      exact ⟨fun h => .inl ⟨hfront, h⟩, fun h => (h.resolve_right huser).2⟩
    · rw [not_isPrivateHost_front hat hfront]
      exact ⟨fun h => absurd h Bool.false_ne_true, fun h => absurd (h.resolve_right huser).1 hfront⟩

/-- A private address in plain sight. -/
theorem ten_url_refused : isPrivateUrl asciiCaseTables "http://10.0.0.1/".toList = true := by
  have hhost : rfcHost "10.0.0.1/".toList = dottedQuad 10 0 0 1 := by decide
  have hprivate : PrivateHost (rfcHost "10.0.0.1/".toList) :=
    .inr (.inr ⟨10, 0, 0, 1, by decide, by decide, by decide, by decide, hhost, .inr (.inl rfl)⟩)
  have hseen : ¬ MissedLoopback (rfcHost "10.0.0.1/".toList) := by
    rintro ⟨b, c, d, hb, hc, hd, heq, -⟩
    rw [hhost] at heq
    have hparse := congrArg parseIpv4 heq
    rw [parseIpv4_dottedQuad (by decide) (by decide) (by decide) (by decide),
      parseIpv4_dottedQuad (by decide) hb hc hd] at hparse
    simp at hparse
  have hfront : HostInFront "10.0.0.1/".toList := ⟨by decide, by decide, .inr (by decide)⟩
  have hscheme : afterHttpScheme "http://10.0.0.1/".toList = some "10.0.0.1/".toList := by decide
  exact ((private_url_refused_iff asciiCaseTables hscheme hprivate).mpr (.inl ⟨hfront, hseen⟩)).1

/-- A user name hides the host. -/
theorem userinfo_hides_host :
    ¬ ∀ (tables : CaseTables) (url rest : List Char), afterHttpScheme url = some rest → PrivateHost (rfcHost rest) →
      isPrivateUrl tables url = true := by
  intro h
  have hhost : rfcHost "x@127.0.0.1/".toList = dottedQuad 127 0 0 1 := by decide
  have hprivate : PrivateHost (rfcHost "x@127.0.0.1/".toList) :=
    .inr (.inr ⟨127, 0, 0, 1, by decide, by decide, by decide, by decide, hhost, .inl rfl⟩)
  have hscheme : afterHttpScheme "http://x@127.0.0.1/".toList = some "x@127.0.0.1/".toList := by decide
  have hrefused := h asciiCaseTables _ _ hscheme hprivate
  exact absurd hrefused (by decide)

end Beetle.Tools
