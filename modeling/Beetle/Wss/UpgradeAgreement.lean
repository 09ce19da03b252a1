import Beetle.Wss.UpgradeUrl

/-! Which URLs lead to one well-formed request to the right host, on the device and on Linux. -/
namespace Beetle.Wss
open Beetle.Lib Beetle.Lib.Http

/-! The URLs. -/

def isNameByte (b : UInt8) : Bool :=
  isDigitByte b || (65 ≤ b && b ≤ 90) || (97 ≤ b && b ≤ 122) || b ∈ bytes "-._~%!$&'()*+,;="

def isPathByte (b : UInt8) : Bool := isNameByte b || b ∈ bytes ":@/"

def isQueryByte (b : UInt8) : Bool := isPathByte b || b = question

/-- `wss://host[:port][path][?query][#fragment]`, where the host is a name or an IPv4 address. -/
structure PlainUrl where
  host : Bytes
  portText : Option Bytes
  path : Bytes
  query : Option Bytes
  fragment : Option Bytes
  host_ne : host ≠ []
  host_ok : ∀ b ∈ host, isNameByte b = true
  port_ok : ∀ port ∈ portText, port ≠ [] ∧ (∀ b ∈ port, isDigitByte b = true) ∧ 0 < digitsValue port ∧ digitsValue port ≤ 65535
  path_ok : ∀ b ∈ path, isPathByte b = true
  path_slash : ∀ b ∈ path.head?, b = slash
  query_ok : ∀ part ∈ query, ∀ b ∈ part, isQueryByte b = true
  fragment_ok : ∀ part ∈ fragment, ∀ b ∈ part, isQueryByte b = true

variable {b : UInt8} {extraHeaders : Option Bytes} {randomKey : Bytes} {u : PlainUrl}

theorem isNameByte_ne (h : isNameByte b = true) :
    b ≠ slash ∧ b ≠ question ∧ b ≠ hash ∧ b ≠ colon ∧ b ≠ 91 ∧ b ≠ 93 ∧ b ≠ cr ∧ b ≠ lf := by
  refine ⟨?_, ?_, ?_, ?_, ?_, ?_, ?_, ?_⟩ <;> rintro rfl <;> exact absurd h (by decide +kernel)

theorem isPathByte_ne (h : isPathByte b = true) : b ≠ question ∧ b ≠ hash ∧ b ≠ cr := by
  refine ⟨?_, ?_, ?_⟩ <;> rintro rfl <;> exact absurd h (by decide +kernel)

theorem isQueryByte_ne (h : isQueryByte b = true) : b ≠ hash ∧ b ≠ cr := by
  refine ⟨?_, ?_⟩ <;> rintro rfl <;> exact absurd h (by decide +kernel)

theorem isDigitByte_ne (h : isDigitByte b = true) :
    b ≠ slash ∧ b ≠ question ∧ b ≠ hash ∧ b ≠ colon ∧ b ≠ 43 ∧ b ≠ 45 ∧ isCSpace b = false := by
  refine ⟨?_, ?_, ?_, ?_, ?_, ?_, ?_⟩
  · rintro rfl; exact absurd h (by decide)
  · rintro rfl; exact absurd h (by decide)
  · rintro rfl; exact absurd h (by decide)
  · rintro rfl; exact absurd h (by decide)
  · rintro rfl; exact absurd h (by decide)
  · rintro rfl; exact absurd h (by decide)
  · simp only [isDigitByte, Bool.and_eq_true, decide_eq_true_eq, UInt8.le_iff_toNat_le] at h
    simp only [isCSpace, Bool.or_eq_false_iff, Bool.and_eq_false_iff, decide_eq_false_iff_not, UInt8.le_iff_toNat_le]
    have h48 : (48 : UInt8).toNat = 48 := rfl
    have h13 : (13 : UInt8).toNat = 13 := rfl
    refine ⟨?_, .inr (by omega)⟩
    rintro rfl
    exact absurd h (by decide)

/-- A part of the URL behind the byte that begins it. -/
def optionalPart (b : UInt8) : Option Bytes → Bytes
  | none => []
  | some part => b :: part

namespace PlainUrl
variable (u : PlainUrl)

@[grind =] def queryPart : Bytes := optionalPart question u.query

def tail : Bytes := u.path ++ (u.queryPart ++ optionalPart hash u.fragment)

/-- 443 where there is none. -/
def port : Nat :=
  match u.portText with
  | none => defaultPort
  | some port => digitsValue port

/-- The path, or a slash, and the query. -/
def target : Bytes := (if u.path = [] then [slash] else u.path) ++ u.queryPart

def pieces : UrlPieces where
  host := u.host
  portText := u.portText
  tail := u.tail
  host_plain b hb := by
    obtain ⟨hslash, hquestion, hhash, hcolon, -⟩ := isNameByte_ne (u.host_ok b hb)
    refine ⟨?_, hcolon⟩
    simp [isDelimiter, hslash, hquestion, hhash]
  port_plain port hport b hb := by
    obtain ⟨hslash, hquestion, hhash, -⟩ := isDigitByte_ne ((u.port_ok port hport).2.1 b hb)
    simp [isDelimiter, hslash, hquestion, hhash]
  tail_delimited b hb := by
    unfold tail queryPart at hb
    cases hpath : u.path with
    | cons c path =>
      rw [hpath] at hb
      obtain rfl := Option.some.inj hb
      obtain rfl := u.path_slash c (by rw [hpath]; rfl)
      decide
    | nil =>
      rw [hpath] at hb
      cases hquery : u.query with
      | some query =>
        rw [hquery] at hb
        obtain rfl := Option.some.inj hb
        decide
      | none =>
        rw [hquery] at hb
        cases hfragment : u.fragment with
        | some fragment =>
          rw [hfragment] at hb
          obtain rfl := Option.some.inj hb
          decide
        | none =>
          rw [hfragment] at hb
          cases hb

def text : Bytes := u.pieces.text

def hostHeader : Bytes := u.host ++ if u.port = defaultPort then [] else colon :: utf8 (decimal u.port)

end PlainUrl

/-- What a URL asks for: its host and port on both platforms, and one request for its target that names them. -/
structure RightConnection (u : PlainUrl) (c : Connected) : Prop where
  host : c.host = u.host
  port : c.port = u.port
  target : u.target.head? = some slash
  head : bytes "GET " ++ (u.target ++ (bytes " HTTP/1.1\r\nHost: " ++ (u.hostHeader ++ crlf))) <+: c.request
  oneEmptyLine : OnlyLastIsEmpty c.request
  linux : (parseWssHostPort u.text).bind splitSocketAddr = some (u.host, u.port)

/-! The device. -/

theorem digitsValue_strtol {digits : Bytes} (hne : digits ≠ []) (hdigits : ∀ b ∈ digits, isDigitByte b = true)
    (hle : digitsValue digits ≤ 65535) : strtol digits = some ((digitsValue digits : Int), []) := by
  obtain ⟨b, rest, rfl⟩ := List.exists_cons_of_ne_nil hne
  obtain ⟨-, -, -, -, hplus, hminus, hspace⟩ := isDigitByte_ne (hdigits b (.head _))
  have hdrop : (b :: rest).dropWhile isCSpace = b :: rest := by
    rw [List.dropWhile_cons_of_neg (by rw [hspace]; decide)]
  have hsign : ¬ (b :: rest).head? = some 45 ∧ ¬ (b :: rest).head? = some 43 :=
    ⟨fun h => hminus (Option.some.inj h), fun h => hplus (Option.some.inj h)⟩
  have hall : (b :: rest).takeWhile isDigitByte = b :: rest := List.takeWhile_eq_self_iff.mpr hdigits
  have hend : (b :: rest).dropWhile isDigitByte = [] := List.dropWhile_eq_nil_iff.mpr hdigits
  have hvalue : ¬ ((digitsValue (b :: rest) : Int) < -2 ^ 31 ∨ 2 ^ 31 ≤ (digitsValue (b :: rest) : Int)) := by omega
  simp only [strtol, hdrop, hsign, false_or, if_false, hall, hend, hvalue, List.cons_ne_nil]

namespace PlainUrl
variable (u : PlainUrl)

theorem head_target : u.target.head? = some slash := by
  unfold target
  split
  · rfl
  · rename_i hpath
    obtain ⟨b, rest, hcons⟩ := List.exists_cons_of_ne_nil hpath
    rw [hcons, List.cons_append, List.head?_cons, u.path_slash b (by rw [hcons]; rfl)]

theorem hostHeader_eq : u.hostHeader = hostHeaderOf u.host u.port := by
  unfold hostHeader hostHeaderOf
  split
  · exact List.append_nil _
  · rfl

theorem takeWhile_tail : u.tail.takeWhile (· ≠ hash) = u.path ++ u.queryPart := by
  have hpath : ∀ b ∈ u.path, decide (b ≠ hash) = true := fun b hb => decide_eq_true (isPathByte_ne (u.path_ok b hb)).2.1
  have hquery : ∀ b ∈ u.queryPart, decide (b ≠ hash) = true := by
    intro b hb
    unfold queryPart at hb
    cases hquery : u.query with
    | none =>
      rw [hquery] at hb
      cases hb
    | some query =>
      rw [hquery] at hb
      rcases List.mem_cons.mp hb with rfl | hb
      · decide
      · exact decide_eq_true (isQueryByte_ne (u.query_ok query hquery b hb)).1
  rw [tail, List.takeWhile_append_of_pos hpath, List.takeWhile_append_of_pos hquery]
  cases u.fragment with
  | none => rw [optionalPart, List.takeWhile_nil, List.append_nil]
  | some fragment => rw [optionalPart, List.takeWhile_cons_of_neg (by decide), List.append_nil]

/-- Where there is no path, a query comes without the slash. -/
theorem pathOf_tail (h : u.path ≠ [] ∨ u.query = none) : pathOf u.tail = u.target := by
  have htake := u.takeWhile_tail
  cases hpath : u.path with
  | cons b path =>
    obtain ⟨rest, htail⟩ : ∃ rest, u.tail = b :: rest := ⟨_, by rw [tail, hpath]; rfl⟩
    have hslash : b = slash := u.path_slash b (by rw [hpath]; rfl)
    rw [htail] at htake ⊢
    rw [pathOf, if_neg (by rw [hslash]; decide), htake, target, if_neg (by rw [hpath]; simp)]
  | nil =>
    have hquery : u.query = none := h.resolve_left fun hne => hne hpath
    have hpart : u.queryPart = [] := by rw [queryPart, hquery]; rfl
    rw [target, if_pos hpath, hpart, List.append_nil, tail, hpath, hpart, List.nil_append, List.nil_append]
    cases u.fragment with
    | none => rfl
    | some fragment => rfl

theorem port_pieces : u.pieces.port = some u.port := by
  unfold UrlPieces.port port
  change (match u.portText with | none => _ | some _ => _) = _
  cases hport : u.portText with
  | none => rfl
  | some digits =>
    obtain ⟨hne, hdigits, hpos, hle⟩ := u.port_ok digits hport
    dsimp only
    rw [parsePort, digitsValue_strtol hne hdigits hle]
    dsimp only
    rw [if_neg (by simp; omega), Int.toNat_natCast]

theorem parseUrl_text : parseUrl u.text = some ⟨u.host, hostHeaderOf u.host u.port, pathOf u.tail, u.port⟩ := by
  have hplain : ¬ (u.host = [] ∨ 91 ∈ u.host ∨ 93 ∈ u.host) := by
    rintro (hnil | hmem | hmem)
    · exact u.host_ne hnil
    · exact (isNameByte_ne (u.host_ok _ hmem)).2.2.2.2.1 rfl
    · exact (isNameByte_ne (u.host_ok _ hmem)).2.2.2.2.2.1 rfl
  rw [text, u.pieces.parseUrl_text, u.port_pieces]
  exact if_neg hplain

end PlainUrl

/-! Linux. -/

theorem splitSocketAddr_append {portText : Bytes} (h : colon ∉ portText) (host : Bytes) :
    splitSocketAddr (host ++ colon :: portText) = (parseU16 portText).map fun port => (host, port) := by
  have hreverse : (host ++ colon :: portText).reverse = portText.reverse ++ colon :: host.reverse := by simp
  have hport : ∀ b ∈ portText.reverse, decide (b ≠ colon) = true := fun b hb =>
    decide_eq_true fun heq => h (heq ▸ List.mem_reverse.mp hb)
  have htake : (host ++ colon :: portText).rtakeWhile (· ≠ colon) = portText := by
    rw [List.rtakeWhile, hreverse, List.takeWhile_append_of_pos hport, List.takeWhile_cons_of_neg (by decide), List.append_nil,
      List.reverse_reverse]
  have hdrop : (host ++ colon :: portText).rdropWhile (· ≠ colon) = host ++ [colon] := by
    rw [List.rdropWhile, hreverse, List.dropWhile_append_of_pos hport, List.dropWhile_cons_of_neg (by decide),
      List.reverse_cons, List.reverse_reverse]
  rw [splitSocketAddr, if_pos (by simp), htake, hdrop, List.dropLast_concat]

theorem exists_of_splitSocketAddr {hostPort host : Bytes} {port : Nat} (h : splitSocketAddr hostPort = some (host, port)) :
    ∃ portText, hostPort = host ++ colon :: portText ∧ parseU16 portText = some port := by
  by_cases hcolon : colon ∈ hostPort
  · -- The last colon.
    obtain ⟨after, before, hparts, hnot⟩ := List.eq_append_cons_of_mem (List.mem_reverse.mpr hcolon)
    have hpair : hostPort = before.reverse ++ colon :: after.reverse := by
      rw [← List.reverse_reverse hostPort, hparts]
      simp
    rw [hpair, splitSocketAddr_append (by simpa using hnot)] at h
    obtain ⟨found, hport, heq⟩ := Option.map_eq_some_iff.mp h
    obtain ⟨rfl, rfl⟩ := Prod.mk.inj heq
    exact ⟨after.reverse, hpair, hport⟩
  · rw [splitSocketAddr, if_neg hcolon] at h
    cases h

theorem parseU16_digits {digits : Bytes} (hne : digits ≠ []) (hdigits : ∀ b ∈ digits, isDigitByte b = true)
    (hle : digitsValue digits ≤ 65535) : parseU16 digits = some (digitsValue digits) := by
  have hsign : ¬ digits.head? = some 43 := fun h => (isDigitByte_ne (hdigits 43 (List.mem_of_head? h))).2.2.2.2.1 rfl
  have hrefused : ¬ (digits = [] ∨ ¬ digits.all isDigitByte ∨ 65535 < digitsValue digits) := by
    rintro (h | h | h)
    · exact hne h
    · exact h (List.all_eq_true.mpr hdigits)
    · exact absurd hle (Nat.not_le.mpr h)
  rw [parseU16, if_neg hsign]
  exact if_neg hrefused

/-- A port has digits only, behind its first byte. -/
theorem isDigitByte_of_parseU16 {b c : UInt8} {text : Bytes} {port : Nat} (h : parseU16 (c :: text) = some port) (hb : b ∈ text) :
    isDigitByte b = true := by
  have hall {digits : Bytes} (h : (if digits = [] ∨ ¬ digits.all isDigitByte = true ∨ 65535 < digitsValue digits then none
      else some (digitsValue digits)) = some port) : ∀ b ∈ digits, isDigitByte b = true := by
    split at h
    · cases h
    · rename_i hrefused
      rw [not_or, not_or, not_not, List.all_eq_true] at hrefused
      exact hrefused.2.1
  by_cases hsign : (c :: text).head? = some 43
  · rw [parseU16, if_pos hsign] at h
    exact hall h b hb
  · rw [parseU16, if_neg hsign] at h
    exact hall h b (.tail _ hb)

namespace PlainUrl
variable (u : PlainUrl)

theorem parseWssHostPort_text : parseWssHostPort u.text =
    some (u.host ++ portPart u.portText ++ u.tail.takeWhile (· ≠ slash) ++
      if colon ∈ u.host ++ portPart u.portText ++ u.tail.takeWhile (· ≠ slash) then [] else bytes ":443") := by
  have hauthority : ∀ b ∈ u.host ++ portPart u.portText, decide (b ≠ slash) = true := by
    intro b hb
    have hnot := u.pieces.authority_plain b hb
    refine decide_eq_true ?_
    rintro rfl
    exact absurd hnot (by decide)
  have hne : u.host ++ portPart u.portText ++ u.tail.takeWhile (· ≠ slash) ≠ [] := by
    have hhost := u.host_ne
    simp only [ne_eq, List.append_eq_nil_iff, not_and]
    exact fun h => (hhost h.1).elim
  have htext : u.text = bytes "wss://" ++ (u.host ++ portPart u.portText ++ u.tail) := rfl
  rw [htext, parseWssHostPort, isPrefixOf?_append, Option.some_or]
  dsimp only
  rw [List.takeWhile_append_of_pos hauthority, if_neg hne]
  split
  · rw [List.append_nil]
  · rfl

/-- Linux finds the host and the port where a slash, or nothing, comes behind them. -/
theorem linux_iff : (parseWssHostPort u.text).bind splitSocketAddr = some (u.host, u.port) ↔
    u.path ≠ [] ∨ (u.query = none ∧ u.fragment = none) := by
  have hhost : colon ∉ u.host := fun hmem => (isNameByte_ne (u.host_ok _ hmem)).2.2.2.1 rfl
  rw [u.parseWssHostPort_text, Option.bind_some]
  by_cases hpath : u.path ≠ [] ∨ (u.query = none ∧ u.fragment = none)
  · have htail : u.tail.takeWhile (· ≠ slash) = [] := by
      rcases hpath with hpath | ⟨hquery, hfragment⟩
      · obtain ⟨b, rest, hcons⟩ := List.exists_cons_of_ne_nil hpath
        obtain rfl := u.path_slash b (by rw [hcons]; rfl)
        rw [tail, hcons, List.cons_append, List.takeWhile_cons_of_neg (by decide)]
      · cases hcons : u.path with
        | nil =>
          rw [tail, hcons, queryPart, hquery, hfragment]
          rfl
        | cons b rest =>
          obtain rfl := u.path_slash b (by rw [hcons]; rfl)
          rw [tail, hcons, List.cons_append, List.takeWhile_cons_of_neg (by decide)]
    refine iff_of_true ?_ hpath
    rw [htail, List.append_nil]
    unfold port
    cases hport : u.portText with
    | none =>
      have h443 : bytes ":443" = colon :: bytes "443" := by decide +kernel
      have hparse : parseU16 (bytes "443") = some defaultPort := by decide +kernel
      rw [portPart, List.append_nil, if_neg hhost, h443, splitSocketAddr_append (by decide +kernel), hparse]
      rfl
    | some digits =>
      obtain ⟨hne, hdigits, -, hle⟩ := u.port_ok digits hport
      have hcolon : colon ∉ digits := fun hmem => (isDigitByte_ne (hdigits _ hmem)).2.2.2.1 rfl
      rw [portPart, if_pos (by simp), List.append_nil, splitSocketAddr_append hcolon, parseU16_digits hne hdigits hle]
      rfl
  · refine iff_of_false (fun h => ?_) hpath
    rw [not_or, not_not, not_and_or] at hpath
    obtain ⟨hnil, hpart⟩ := hpath
    -- What is behind the host begins with the query or the fragment.
    obtain ⟨b, rest, htail, hb⟩ : ∃ b rest, u.tail.takeWhile (· ≠ slash) = b :: rest ∧ (b = question ∨ b = hash) := by
      rw [tail, hnil, List.nil_append, queryPart]
      cases hquery : u.query with
      | some query => exact ⟨question, _, List.takeWhile_cons_of_pos (by decide), .inl rfl⟩
      | none =>
        cases hfragment : u.fragment with
        | some fragment => exact ⟨hash, _, List.takeWhile_cons_of_pos (by decide), .inr rfl⟩
        | none => exact absurd (And.intro hquery hfragment) (not_and_or.mpr hpart)
    obtain ⟨portText, hhostPort, hport⟩ := exists_of_splitSocketAddr h
    rw [htail, List.append_assoc, List.append_assoc] at hhostPort
    have hrest := List.append_cancel_left hhostPort
    have hnot : isDigitByte b = false ∧ b ≠ colon := by
      rcases hb with rfl | rfl
      · decide
      · decide
    cases hportText : u.portText with
    | none =>
      rw [hportText, portPart, List.nil_append, List.cons_append] at hrest
      exact hnot.2 (List.cons.inj hrest).1
    | some digits =>
      obtain ⟨hne, -⟩ := u.port_ok digits hportText
      obtain ⟨c, digits, rfl⟩ := List.exists_cons_of_ne_nil hne
      rw [hportText, portPart, List.cons_append, List.cons_append] at hrest
      obtain ⟨-, rfl⟩ := List.cons.inj hrest
      rw [isDigitByte_of_parseU16 hport (List.mem_append_right _ (.head _))] at hnot
      exact absurd hnot.1 (by decide)

end PlainUrl

/-! Both. -/

/-- The head that the device writes. -/
theorem prefix_of_connect {c : Connected}
    (h : connect u.text extraHeaders randomKey = some c) : c.host = u.host ∧ c.port = u.port ∧
      bytes "GET " ++ (pathOf u.tail ++ (bytes " HTTP/1.1\r\nHost: " ++ (u.hostHeader ++ crlf))) <+: c.request := by
  rw [connect, u.parseUrl_text] at h
  obtain ⟨request, hrequest, rfl⟩ := Option.map_eq_some_iff.mp h
  refine ⟨rfl, rfl, ?_⟩
  unfold httpUpgradeRequest at hrequest
  split at hrequest
  · cases hrequest
  · split at hrequest
    · cases hrequest
    · dsimp only at hrequest
      split at hrequest
      · cases hrequest
      · obtain ⟨front, hfront, rfl⟩ := Option.map_eq_some_iff.mp hrequest
        refine List.IsPrefix.trans ?_ ((prefix_of_withExtraHeaders hfront).trans (List.prefix_append _ _))
        rw [requestHead, u.hostHeader_eq]
        simp only [List.append_assoc, List.prefix_append_right_inj, List.prefix_append]

/-- A plain URL leads to the right connection exactly where it has a path or ends behind the authority, and the headers do
not begin with the end of a line. -/
theorem rightConnection_iff {c : Connected} (h : connect u.text extraHeaders randomKey = some c) : RightConnection u c ↔
      (u.path ≠ [] ∨ (u.query = none ∧ u.fragment = none)) ∧ ∀ extra ∈ extraHeaders, ¬ crlf <+: extra := by
  obtain ⟨hhost, hport, hhead⟩ := prefix_of_connect h
  have hclean : u.pieces.Clean extraHeaders ↔ ∀ extra ∈ extraHeaders, ¬ crlf <+: extra := by
    have hcr : cr ∉ u.path ++ u.queryPart := by
      intro hmem
      rcases List.mem_append.mp hmem with hmem | hmem
      · exact (isPathByte_ne (u.path_ok _ hmem)).2.2 rfl
      · rw [PlainUrl.queryPart] at hmem
        cases hquery : u.query with
        | none =>
          rw [hquery] at hmem
          cases hmem
        | some query =>
          rw [hquery] at hmem
          rcases List.mem_cons.mp hmem with heq | hmem
          · exact absurd heq (by decide)
          · exact (isQueryByte_ne (u.query_ok query hquery _ hmem)).2 rfl
    have hhostCr : cr ∉ u.host := fun hmem => (isNameByte_ne (u.host_ok _ hmem)).2.2.2.2.2.2.1 rfl
    have htarget : ¬ crlf ++ crlf <:+: u.tail.takeWhile (· ≠ hash) := by
      rw [u.takeWhile_tail]
      exact fun hinside => hcr (hinside.subset (.head _))
    exact ⟨UrlPieces.Clean.headers, fun hextra => ⟨htarget, fun hinside => hhostCr (hinside.subset (.head _)),
      fun _ hsuffix => hhostCr (hsuffix.subset (.head _)), hextra⟩⟩
  have hempty : OnlyLastIsEmpty c.request ↔ ∀ extra ∈ extraHeaders, ¬ crlf <+: extra :=
    (onlyLastIsEmpty_connect_iff (u := u.pieces) h).trans hclean
  constructor
  · exact fun hright => ⟨u.linux_iff.mp hright.linux, hempty.mp hright.oneEmptyLine⟩
  · rintro ⟨hpath, hextra⟩
    rw [u.pathOf_tail (hpath.imp_right And.left)] at hhead
    exact ⟨hhost, hport, u.head_target, hhead, hempty.mpr hextra, u.linux_iff.mpr hpath⟩

theorem connect_eq_none_iff (hkey : randomKey.length = 16) :
    connect u.text extraHeaders randomKey = none ↔ ∃ extra ∈ extraHeaders, crlf ++ crlf <:+: extra := by
  rw [connect, u.parseUrl_text]
  dsimp only
  rw [Option.map_eq_none_iff, httpUpgradeRequest_eq_none_iff hkey]

/-- Which plain URLs and headers lead to the right connection, and which URLs and headers of any kind to a request with one
empty line. -/
theorem upgrade_iff (extraHeaders : Option Bytes) (randomKey : Bytes) :
    (∀ u : PlainUrl, randomKey.length = 16 →
      (connect u.text extraHeaders randomKey = none ↔ ∃ extra ∈ extraHeaders, crlf ++ crlf <:+: extra) ∧
      ∀ c, connect u.text extraHeaders randomKey = some c → (RightConnection u c ↔
        (u.path ≠ [] ∨ (u.query = none ∧ u.fragment = none)) ∧ ∀ extra ∈ extraHeaders, ¬ crlf <+: extra)) ∧
    ∀ (url : Bytes) (c : Connected), connect url extraHeaders randomKey = some c →
      ∃ u : UrlPieces, u.text = url ∧ (OnlyLastIsEmpty c.request ↔ u.Clean extraHeaders) := by
  refine ⟨fun u hkey => ⟨connect_eq_none_iff hkey, fun c h => rightConnection_iff h⟩, fun url c h => ?_⟩
  have hparsed : ∃ parsed, parseUrl url = some parsed := by
    rw [connect] at h
    split at h
    · cases h
    · rename_i parsed hparsed
      exact ⟨parsed, hparsed⟩
  obtain ⟨parsed, hparsed⟩ := hparsed
  obtain ⟨u, rfl⟩ := exists_pieces hparsed
  exact ⟨u, rfl, onlyLastIsEmpty_connect_iff h⟩

/-- `wss://h/p?q`. -/
def pathAndQuery : PlainUrl where
  host := bytes "h"
  portText := none
  path := bytes "/p"
  query := some (bytes "q")
  fragment := none
  host_ne := by decide +kernel
  host_ok := by decide +kernel
  port_ok := nofun
  path_ok := by decide +kernel
  path_slash := by decide +kernel
  query_ok := by decide +kernel
  fragment_ok := nofun

theorem upgrade_pathAndQuery : ∃ c, connect pathAndQuery.text none (List.replicate 16 0) = some c ∧
    RightConnection pathAndQuery c ∧
      ∃ u : UrlPieces, u.text = pathAndQuery.text ∧ (OnlyLastIsEmpty c.request ↔ u.Clean none) := by
  obtain ⟨hplain, hany⟩ := upgrade_iff none (List.replicate 16 0)
  obtain ⟨hnone, hright⟩ := hplain pathAndQuery rfl
  cases h : connect pathAndQuery.text none (List.replicate 16 0) with
  | none => exact absurd (hnone.mp h) (by simp)
  | some c => exact ⟨c, rfl, (hright c h).mpr ⟨.inl (by decide +kernel), nofun⟩, hany _ c h⟩

/-- `wss://h?q`, as it is made of a base URL without its slash. -/
def bareQuery : PlainUrl where
  host := bytes "h"
  portText := none
  path := []
  query := some (bytes "q")
  fragment := none
  host_ne := by decide +kernel
  host_ok := by decide +kernel
  port_ok := nofun
  path_ok := nofun
  path_slash := nofun
  query_ok := by decide +kernel
  fragment_ok := nofun

/-- The device asks for the target `?q`, and Linux for the host `h?q`. -/
theorem bareQuery_misses : ¬ ∀ (u : PlainUrl) (extraHeaders : Option Bytes) (randomKey : Bytes) (c : Connected),
    randomKey.length = 16 → connect u.text extraHeaders randomKey = some c → RightConnection u c := by
  intro h
  cases hconnect : connect bareQuery.text none (List.replicate 16 0) with
  | none => exact absurd ((connect_eq_none_iff rfl).mp hconnect) (by simp)
  | some c =>
    have hlinux := (h bareQuery none _ c rfl hconnect).linux
    have hother : (parseWssHostPort bareQuery.text).bind splitSocketAddr = some (bytes "h?q", 443) := by decide +kernel
    rw [hother] at hlinux
    exact absurd hlinux (by decide +kernel)

end Beetle.Wss
