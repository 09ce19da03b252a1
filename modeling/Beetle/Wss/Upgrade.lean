import Beetle.Lib.HttpLines
import Beetle.Lib.JsonRead
import Beetle.Lib.Search

/-! From the URL to the connection: how the device and Linux split it, and the request for the upgrade that the device
writes. -/
namespace Beetle.Wss
open Beetle.Lib Beetle.Lib.Http

def slash : UInt8 := 47
def question : UInt8 := 63
def hash : UInt8 := 35

def defaultPort : Nat := 443

/-! The device. -/

structure WssUrl where
  host : Bytes
  hostHeader : Bytes
  path : Bytes
  port : Nat

def isDelimiter (b : UInt8) : Bool := b = slash || b = question || b = hash

/-- `isspace`. -/
def isCSpace (b : UInt8) : Bool := b = space || (9 ≤ b && b ≤ 13)

def isDigitByte (b : UInt8) : Bool := 48 ≤ b && b ≤ 57

def digitsValue (digits : Bytes) : Nat := digits.foldl (fun n b => n * 10 + (b.toNat - 48)) 0

/-- `strtol` to base 10: the number and what is behind it. There is none where no digit was found, and where it is out of
the range of a `long` of the device. -/
def strtol (text : Bytes) : Option (Int × Bytes) :=
  let signed := text.dropWhile isCSpace
  let negative := signed.head? = some 45
  let unsigned := if negative ∨ signed.head? = some 43 then signed.tail else signed
  let digits := unsigned.takeWhile isDigitByte
  let value : Int := if negative then -(digitsValue digits : Int) else digitsValue digits
  if digits = [] then none
  else if value < -2 ^ 31 ∨ 2 ^ 31 ≤ value then none
  else some (value, unsigned.dropWhile isDigitByte)

/-- The port behind the colon. -/
def parsePort (portText : Bytes) : Option Nat :=
  match strtol portText with
  | none => none
  | some (port, portEnd) => if portEnd ≠ [] ∨ port ≤ 0 ∨ port > 65535 then none else some port.toNat

/-- The request target, from the first delimiter behind the host on. -/
def pathOf : Bytes → Bytes
  | [] => [slash]
  | b :: rest => if b = hash then [slash] else (b :: rest).takeWhile (· ≠ hash)

def hostHeaderOf (host : Bytes) (port : Nat) : Bytes :=
  if port = defaultPort then host else host ++ colon :: utf8 (decimal port)

/-- `beetle_wss_parse_url`; memory is taken to be there. -/
def parseUrl (url : Bytes) : Option WssUrl :=
  match (bytes "wss://").isPrefixOf? url with
  | none => none
  | some cursor =>
    let hostText := cursor.takeWhile (!isDelimiter ·)
    let path := pathOf (cursor.dropWhile (!isDelimiter ·))
    let host := hostText.takeWhile (· ≠ colon)
    let port := if colon ∈ hostText then parsePort (hostText.drop (host.length + 1)) else some defaultPort
    match port with
    | none => none
    | some port => if host = [] ∨ 91 ∈ host ∨ 93 ∈ host then none else some ⟨host, hostHeaderOf host port, path, port⟩

def containsForbiddenNl (value : Bytes) : Bool := (splitAtFirst (crlf ++ crlf) value).isSome

def base64Table : Bytes := bytes "ABCDEFGHIJKLMNOPQRSTUVWXYZabcdefghijklmnopqrstuvwxyz0123456789+/"

/-- The six bits of a triple at a shift. -/
def sextet (triple shift : Nat) : UInt8 := base64Table.getD (triple / 2 ^ shift % 64) 0

def base64Loop : Bytes → Bytes
  | [] => []
  | [a] =>
    let triple := a.toNat * 2 ^ 16
    [sextet triple 18, sextet triple 12, 61, 61]
  | [a, b] =>
    let triple := a.toNat * 2 ^ 16 + b.toNat * 2 ^ 8
    [sextet triple 18, sextet triple 12, sextet triple 6, 61]
  | a :: b :: c :: rest =>
    let triple := a.toNat * 2 ^ 16 + b.toNat * 2 ^ 8 + c.toNat
    sextet triple 18 :: sextet triple 12 :: sextet triple 6 :: sextet triple 0 :: base64Loop rest

/-- None where the text and its end do not fit. -/
def base64Encode (input : Bytes) (outCap : Nat) : Option Bytes :=
  if outCap < (input.length + 2) / 3 * 4 + 1 then none else some (base64Loop input)

/-- What `snprintf` writes. -/
def requestHead (url : WssUrl) (secKey : Bytes) : Bytes :=
  bytes "GET " ++ url.path ++ bytes " HTTP/1.1\r\nHost: " ++ (url.hostHeader ++ crlf) ++
    bytes "Upgrade: websocket\r\nConnection: Upgrade\r\nSec-WebSocket-Version: 13\r\nSec-WebSocket-Key: " ++ secKey ++
    bytes "\r\nUser-Agent: beetle-wss/0.1\r\n"

/-- The request behind the extra headers; those of a null pointer are none. -/
def withExtraHeaders (requestCap : Nat) (request : Bytes) : Option Bytes → Option Bytes
  | none => some request
  | some [] => some request
  | some extra =>
    if request.length + extra.length + 4 ≥ requestCap then none
    else if crlf <:+ request ++ extra then some (request ++ extra)
    else some (request ++ extra ++ crlf)

/-- `beetle_wss_send_http_upgrade`, up to the request that is written. -/
def httpUpgradeRequest (url : WssUrl) (extraHeaders : Option Bytes) (randomKey : Bytes) : Option Bytes :=
  if extraHeaders.any containsForbiddenNl then none
  else
    match base64Encode randomKey 25 with
    | none => none
    | some secKey =>
      let requestCap := url.path.length + url.hostHeader.length + (extraHeaders.getD []).length + 256
      let request := requestHead url secKey
      if request.length ≥ requestCap then none
      else (withExtraHeaders requestCap request extraHeaders).map (· ++ crlf)

/-- Where TLS is connected to, and what is written to it. -/
structure Connected where
  host : Bytes
  port : Nat
  request : Bytes

/-- `beetle_wss_connect`, where the outside does its part. -/
def connect (url : Bytes) (extraHeaders : Option Bytes) (randomKey : Bytes) : Option Connected :=
  match parseUrl url with
  | none => none
  | some parsed => (httpUpgradeRequest parsed extraHeaders randomKey).map fun request => ⟨parsed.host, parsed.port, request⟩

/-! Linux. -/

/-- `parse_wss_host_port`, on the bytes of the text. -/
def parseWssHostPort (url : Bytes) : Option Bytes :=
  match ((bytes "wss://").isPrefixOf? url).or ((bytes "ws://").isPrefixOf? url) with
  | none => none
  | some rest =>
    let authority := rest.takeWhile (· ≠ slash)
    if authority = [] then none else if colon ∈ authority then some authority else some (authority ++ bytes ":443")

/-- `u16::from_str`. -/
def parseU16 (text : Bytes) : Option Nat :=
  let digits := if text.head? = some 43 then text.tail else text
  if digits = [] ∨ ¬ digits.all isDigitByte ∨ 65535 < digitsValue digits then none else some (digitsValue digits)

/-- `to_socket_addrs`: the host and the port on both sides of the last colon. -/
def splitSocketAddr (hostPort : Bytes) : Option (Bytes × Nat) :=
  if colon ∈ hostPort then
    (parseU16 (hostPort.rtakeWhile (· ≠ colon))).map fun port => ((hostPort.rdropWhile (· ≠ colon)).dropLast, port)
  else none

/-! When the request for the upgrade has one empty line. -/

variable {url : WssUrl} {extraHeaders : Option Bytes} {randomKey secKey request : Bytes}

/-! The key. -/

theorem base64Table_plain : ∀ i < 64, base64Table.getD i 0 ≠ cr ∧ base64Table.getD i 0 ≠ lf := by decide +kernel

theorem sextet_plain (triple shift : Nat) : sextet triple shift ≠ cr ∧ sextet triple shift ≠ lf :=
  base64Table_plain _ (Nat.mod_lt _ (by decide))

theorem base64Loop_plain (input : Bytes) : ∀ b ∈ base64Loop input, b ≠ cr ∧ b ≠ lf := by
  fun_induction base64Loop input with
  | case1 => exact List.forall_mem_nil _
  | case2 a triple =>
    simp only [List.forall_mem_cons]
    exact ⟨sextet_plain _ _, sextet_plain _ _, by decide, by decide, List.forall_mem_nil _⟩
  | case3 a b triple =>
    simp only [List.forall_mem_cons]
    exact ⟨sextet_plain _ _, sextet_plain _ _, sextet_plain _ _, by decide, List.forall_mem_nil _⟩
  | case4 a b c rest triple ih =>
    simp only [List.forall_mem_cons]
    exact ⟨sextet_plain _ _, sextet_plain _ _, sextet_plain _ _, sextet_plain _ _, ih⟩

theorem length_base64Loop (input : Bytes) : (base64Loop input).length = (input.length + 2) / 3 * 4 := by
  fun_induction base64Loop input with
  | case1 => rfl
  | case2 => simp
  | case3 => simp
  | case4 a b c rest triple ih =>
    simp only [List.length_cons, ih]
    omega

/-! The bytes that are the same in every request. -/

theorem run_fixed : run .lineStart (bytes "GET ") = some .within ∧
    (∀ place, run place (bytes " HTTP/1.1\r\nHost: ") = some .within) ∧
    run .lineStart
      (bytes "Upgrade: websocket\r\nConnection: Upgrade\r\nSec-WebSocket-Version: 13\r\nSec-WebSocket-Key: ") =
        some .within ∧
    run .within (bytes "\r\nUser-Agent: beetle-wss/0.1\r\n") = some .lineStart := by
  refine ⟨by decide +kernel, fun place => ?_, by decide +kernel, by decide +kernel⟩
  cases place <;> decide +kernel

/-- A text that ends its line, wherever it stands. -/
theorem run_append_crlf {place last : Place} {text : Bytes} (h : run place (text ++ crlf) = some last) : last = .lineStart := by
  rw [run_append] at h
  obtain ⟨mid, -, hmid⟩ := Option.bind_eq_some_iff.mp h
  by_cases hstart : mid = .lineStart
  · subst hstart
    cases hmid
  · rw [run_crlf hstart] at hmid
    exact (Option.some.inj hmid).symm

/-- The head has an empty line exactly where the target or the host has one. -/
theorem run_requestHead (hkey : ∀ b ∈ secKey, b ≠ cr ∧ b ≠ lf) : run .lineStart (requestHead url secKey) =
    if crlf ++ crlf <:+: url.path ∨ crlf ++ crlf <:+: url.hostHeader ++ crlf then none else some .lineStart := by
  obtain ⟨hget, hversion, hfixed, huserAgent⟩ := run_fixed
  rw [requestHead]
  simp only [List.append_assoc]
  rw [run_append_of_eq hget, run_append]
  cases hpath : run .within url.path with
  | none => rw [if_pos (.inl (run_within_eq_none_iff.mp hpath))]; rfl
  | some place =>
    rw [Option.bind_some, run_append_of_eq (hversion place), ← List.append_assoc, run_append]
    have hpath' : ¬ crlf ++ crlf <:+: url.path := by
      rw [← run_within_eq_none_iff, hpath]
      exact Option.some_ne_none _
    cases hhost : run .within (url.hostHeader ++ crlf) with
    | none => rw [if_pos (.inr (run_within_eq_none_iff.mp hhost))]; rfl
    | some last =>
      have hhost' : ¬ crlf ++ crlf <:+: url.hostHeader ++ crlf := by
        rw [← run_within_eq_none_iff, hhost]
        exact Option.some_ne_none _
      obtain rfl := run_append_crlf hhost
      rw [if_neg (not_or_intro hpath' hhost'), Option.bind_some, run_append_of_eq hfixed,
        run_append_of_eq (run_of_forall hkey), huserAgent]

theorem containsForbiddenNl_iff {value : Bytes} : containsForbiddenNl value = true ↔ crlf ++ crlf <:+: value := by
  rw [containsForbiddenNl, Option.isSome_iff_ne_none, ne_eq, splitAtFirst_eq_none_iff (by decide), not_not]

theorem requestHead_eq_concat (url : WssUrl) (secKey : Bytes) : ∃ front, requestHead url secKey = front ++ crlf := by
  have huserAgent : bytes "\r\nUser-Agent: beetle-wss/0.1\r\n" = bytes "\r\nUser-Agent: beetle-wss/0.1" ++ crlf := by
    decide +kernel
  rw [requestHead, huserAgent, ← List.append_assoc]
  exact ⟨_, rfl⟩

/-- Headers that hold no empty line make one exactly where they begin with the end of a line. -/
theorem run_withExtraHeaders {requestCap : Nat} {head : Bytes} (hhead : run .lineStart head = some .lineStart)
    (hcrlf : ∃ front, head = front ++ crlf) (hextra : ∀ extra ∈ extraHeaders, ¬ crlf ++ crlf <:+: extra)
    (h : withExtraHeaders requestCap head extraHeaders = some request) :
    run .lineStart request = if ∃ extra ∈ extraHeaders, crlf <+: extra then none else some .lineStart := by
  cases extraHeaders with
  | none =>
    obtain rfl := Option.some.inj h
    rw [hhead, if_neg (by simp)]
  | some extra =>
    have hnone : run .lineStart extra = none ↔ crlf <+: extra := by
      rw [run_lineStart_eq_none_iff, or_iff_left (hextra extra rfl)]
    have hexists : (∃ e ∈ some extra, crlf <+: e) ↔ crlf <+: extra := by simp
    simp only [hexists]
    cases extra with
    | nil =>
      obtain rfl := Option.some.inj h
      rw [hhead, if_neg (by decide)]
    | cons b extra =>
      unfold withExtraHeaders at h
      dsimp only at h
      split at h
      · cases h
      · cases hrun : run .lineStart (b :: extra) with
        | none =>
          rw [if_pos (hnone.mp hrun)]
          split at h
          · obtain rfl := Option.some.inj h
            rw [run_append_of_eq hhead, hrun]
          · obtain rfl := Option.some.inj h
            rw [List.append_assoc, run_append_of_eq hhead, run_append, hrun]
            rfl
        | some place =>
          rw [if_neg (by rw [← hnone, hrun]; exact Option.some_ne_none _)]
          have hends : place = .lineStart ↔ crlf <:+ head ++ b :: extra := by
            obtain ⟨front, rfl⟩ := hcrlf
            refine run_eq_lineStart_iff (iff_of_true rfl (List.suffix_append _ _)) (iff_of_false nofun ?_) hrun
            rintro ⟨more, hmore⟩
            have hlast := congrArg List.getLast? hmore
            rw [List.getLast?_append, List.getLast?_concat] at hlast
            cases hlast
          split at h
          · rename_i hsuffix
            obtain rfl := Option.some.inj h
            rw [run_append_of_eq hhead, hrun, hends.mpr hsuffix]
          · rename_i hsuffix
            obtain rfl := Option.some.inj h
            rw [List.append_assoc, run_append_of_eq hhead, run_append_of_eq hrun, run_crlf (hsuffix ∘ hends.mp)]

theorem prefix_of_withExtraHeaders {requestCap : Nat} {head : Bytes}
    (h : withExtraHeaders requestCap head extraHeaders = some request) : head <+: request := by
  unfold withExtraHeaders at h
  split at h
  · obtain rfl := Option.some.inj h
    exact List.prefix_refl _
  · obtain rfl := Option.some.inj h
    exact List.prefix_refl _
  · split at h
    · cases h
    · split at h
      · obtain rfl := Option.some.inj h
        exact List.prefix_append _ _
      · obtain rfl := Option.some.inj h
        rw [List.append_assoc]
        exact List.prefix_append _ _

/-- The one empty line of the request is its last one exactly where neither the target nor the host has one, and the extra
headers do not begin with the end of a line. -/
theorem onlyLastIsEmpty_request_iff (h : httpUpgradeRequest url extraHeaders randomKey = some request) :
    OnlyLastIsEmpty request ↔ ¬ crlf ++ crlf <:+: url.path ∧ ¬ crlf ++ crlf <:+: url.hostHeader ++ crlf ∧
      ∀ extra ∈ extraHeaders, ¬ crlf <+: extra := by
  unfold httpUpgradeRequest at h
  split at h
  · cases h
  · rename_i hforbidden
    have hextra : ∀ extra ∈ extraHeaders, ¬ crlf ++ crlf <:+: extra := by
      rintro extra rfl
      rw [← containsForbiddenNl_iff]
      exact hforbidden
    split at h
    · cases h
    · rename_i secKey hencode
      obtain rfl : base64Loop randomKey = secKey := by
        unfold base64Encode at hencode
        split at hencode
        · cases hencode
        · exact Option.some.inj hencode
      dsimp only at h
      split at h
      · cases h
      · obtain ⟨front, hfront, rfl⟩ := Option.map_eq_some_iff.mp h
        have hsame : (∃ before, front ++ crlf = before ++ crlf ∧ run .lineStart before = some .lineStart) ↔
            run .lineStart front = some .lineStart := by
          constructor
          · rintro ⟨before, hbefore, hrun⟩
            rwa [List.append_cancel_right hbefore]
          · exact fun hrun => ⟨front, rfl, hrun⟩
        rw [onlyLastIsEmpty_iff, hsame]
        have hhead := @run_requestHead url _ (base64Loop_plain randomKey)
        split at hhead
        · rename_i hempty
          obtain ⟨more, rfl⟩ := prefix_of_withExtraHeaders hfront
          rw [run_append, hhead]
          exact iff_of_false nofun fun hclean => hempty.elim hclean.1 hclean.2.1
        · rename_i hclean
          rw [not_or] at hclean
          rw [run_withExtraHeaders hhead (requestHead_eq_concat url _) hextra hfront]
          split
          · rename_i hbegins
            obtain ⟨extra, hmem, hbegins⟩ := hbegins
            exact iff_of_false nofun fun hnot => hnot.2.2 extra hmem hbegins
          · rename_i hbegins
            exact iff_of_true rfl ⟨hclean.1, hclean.2, fun extra hmem hprefix => hbegins ⟨extra, hmem, hprefix⟩⟩

/-! What is accepted. -/

theorem length_requestHead (url : WssUrl) (secKey : Bytes) :
    (requestHead url secKey).length = url.path.length + url.hostHeader.length + secKey.length + 140 := by
  have hget : (bytes "GET ").length = 4 := by decide +kernel
  have hversion : (bytes " HTTP/1.1\r\nHost: ").length = 17 := by decide +kernel
  have hfixed : (bytes "Upgrade: websocket\r\nConnection: Upgrade\r\nSec-WebSocket-Version: 13\r\nSec-WebSocket-Key: ").length
      = 87 := by decide +kernel
  have huserAgent : (bytes "\r\nUser-Agent: beetle-wss/0.1\r\n").length = 30 := by decide +kernel
  have hcrlf : crlf.length = 2 := rfl
  simp only [requestHead, List.length_append, hget, hversion, hfixed, huserAgent, hcrlf]
  omega

/-- Only extra headers that hold an empty line are refused; the buffer is large enough. -/
theorem httpUpgradeRequest_eq_none_iff (hkey : randomKey.length = 16) :
    httpUpgradeRequest url extraHeaders randomKey = none ↔ ∃ extra ∈ extraHeaders, crlf ++ crlf <:+: extra := by
  have hencode : base64Encode randomKey 25 = some (base64Loop randomKey) := by
    rw [base64Encode, hkey]
    exact if_neg (by decide)
  have hlength := length_requestHead url (base64Loop randomKey)
  rw [length_base64Loop, hkey] at hlength
  have hforbidden : extraHeaders.any containsForbiddenNl = true ↔ ∃ extra ∈ extraHeaders, crlf ++ crlf <:+: extra := by
    cases extraHeaders with
    | none => simp
    | some extra => simp [containsForbiddenNl_iff]
  rw [httpUpgradeRequest, hencode, ← hforbidden]
  split
  · rename_i hany
    exact iff_of_true rfl hany
  · rename_i hany
    dsimp only
    rw [if_neg (by omega), Option.map_eq_none_iff]
    refine iff_of_false ?_ hany
    cases extraHeaders with
    | none => exact Option.some_ne_none _
    | some extra =>
      cases extra with
      | nil => exact Option.some_ne_none _
      | cons b extra =>
        unfold withExtraHeaders
        dsimp only
        rw [if_neg (by simp only [Option.getD_some]; omega)]
        split
        · exact Option.some_ne_none _
        · exact Option.some_ne_none _

end Beetle.Wss
