import NestQueueExample.Foundations.JsNumber
import NestQueueExample.Foundations.Url

/-!
# A parser of URLs

The parser of the URL standard for texts that are written without blanks to
strip: the scheme up to the first colon, the authority up to the next delimiter
with the credentials up to its last `@`, the port, and the path. Queries and
fragments are dropped, and texts that need more of the standard are rejected.
-/

namespace NestQueueExample.UrlParser

open PercentEncoding UrlPath

def cut (stop : Char → Bool) (text : List Char) : List Char × List Char :=
  (text.takeWhile fun c ↦ !stop c, text.dropWhile fun c ↦ !stop c)

theorem cut_append {stop : Char → Bool} {text rest : List Char}
    (htext : ∀ c ∈ text, stop c = false) (hrest : ∀ c ∈ rest.head?, stop c = true) :
    cut stop (text ++ rest) = (text, rest) := by
  have hkept : ∀ c ∈ text, (!stop c) = true := fun c hc ↦ by simp [htext c hc]
  rw [cut, List.takeWhile_append_of_pos hkept, List.dropWhile_append_of_pos hkept]
  cases rest with
  | nil => simp
  | cons c rest =>
      have hstop := hrest c rfl
      simp [hstop]

/-- The text before the last `@` and the one after it. -/
def cutCredentials (authority : List Char) : Option (List Char) × List Char :=
  let hostPort := authority.rtakeWhile fun c ↦ c ≠ '@'
  if hostPort.length = authority.length then (none, hostPort)
  else (some (authority.rdropWhile fun c ↦ c ≠ '@').dropLast, hostPort)

theorem cutCredentials_none {hostPort : List Char} (h : ∀ c ∈ hostPort, c ≠ '@') :
    cutCredentials hostPort = (none, hostPort) := by
  have htake : hostPort.rtakeWhile (fun c ↦ c ≠ '@') = hostPort :=
    List.rtakeWhile_eq_self_iff.mpr fun c hc ↦ by simpa using h c hc
  rw [cutCredentials, htake, if_pos rfl]

theorem cutCredentials_some {credentials hostPort : List Char} (h : ∀ c ∈ hostPort, c ≠ '@') :
    cutCredentials (credentials ++ '@' :: hostPort) = (some credentials, hostPort) := by
  have hkept : ∀ c ∈ hostPort.reverse, (decide (c ≠ '@')) = true := fun c hc ↦ by
    simpa using h c (by simpa using hc)
  have htake : (credentials ++ '@' :: hostPort).rtakeWhile (fun c ↦ c ≠ '@') = hostPort := by
    rw [List.rtakeWhile, List.reverse_append, List.reverse_cons, List.append_assoc,
      List.takeWhile_append_of_pos hkept]
    simp
  have hdrop : (credentials ++ '@' :: hostPort).rdropWhile (fun c ↦ c ≠ '@') =
      credentials ++ ['@'] := by
    rw [List.rdropWhile, List.reverse_append, List.reverse_cons, List.append_assoc,
      List.dropWhile_append_of_pos hkept]
    simp
  have hlen : hostPort.length ≠ (credentials ++ '@' :: hostPort).length := by
    simp only [List.length_append, List.length_cons]
    omega
  rw [cutCredentials, htake, hdrop, if_neg hlen, List.dropLast_concat]

/-! ## The parts -/

def isAddressChar (c : Char) : Bool := isHexDigit c || c = ':' || c = '.'

def hostText (allowed : Char → Bool) (h : ∀ c, allowed c = true → c ≠ '[' ∧ c ≠ ']')
    (text : List Char) : Option HostText :=
  if hall : text.all allowed = true then
    some ⟨String.ofList text, fun c hc ↦ h c (List.all_eq_true.mp hall c (by simpa using hc))⟩
  else none

theorem ne_bracket_of_isAddressChar (c : Char) (h : isAddressChar c = true) :
    c ≠ '[' ∧ c ≠ ']' := by
  constructor
  · rintro rfl
    exact absurd h (by decide)
  · rintro rfl
    exact absurd h (by decide)

/-- A port with its colon. -/
def parsePort : List Char → Option (Option (Fin 65536))
  | [] => some none
  | [':'] => some none
  | ':' :: digits =>
      if digits.all Char.isDigit then
        if h : Nat.ofDigitChars 10 digits 0 < 65536 then some (some ⟨_, h⟩) else none
      else none
  | _ => none

def parseHostPort (text : List Char) : Option (Host × Option (Fin 65536)) :=
  if text.head? = some '[' then do
    let (address, port) := cut (fun c ↦ c = ']') text.tail
    let address ← hostText isAddressChar ne_bracket_of_isAddressChar address
    let port ← (if port = [] then none else parsePort port.tail)
    pure (.ipv6 address, port)
  else do
    let (name, port) := cut (fun c ↦ c = ':') text
    let name ← (if name = [] ∧ port ≠ [] then none
      else hostText isHostChar ne_bracket_of_isHostChar name)
    let port ← parsePort port
    pure (.name name, port)

def parsePath (text : List Char) : List String :=
  match text.takeWhile fun c ↦ !endsPath c with
  | [] => []
  | _ :: path => (resolve [] ((path.splitOnP fun c ↦ c = '/').map
      (percentEncode pathEncoded))).map String.ofList

def DEFAULT_PORTS : List (String × ℕ) :=
  [("ftp", 21), ("http", 80), ("https", 443), ("ws", 80), ("wss", 443)]

def isScheme (scheme : List Char) : Bool :=
  scheme.head?.any Char.isAlpha &&
    scheme.all fun c ↦ c.isAlphanum || ['+', '-', '.'].contains c

def isAuthorityEnd (c : Char) : Bool := c = '/' || c = '?' || c = '#'

def parseCredentials (credentials : Option (List Char)) : String × String :=
  let (username, password) := cut (fun c ↦ c = ':') (credentials.getD [])
  (encodeUserinfo (String.ofList username), encodeUserinfo (String.ofList password.tail))

def parseAuthority (scheme : String) (text : List Char) : Option Url := do
  let (authority, path) := cut isAuthorityEnd text
  let (credentials, hostPort) := cutCredentials authority
  let (host, port) ← (if hostPort = [] ∧ credentials.isSome then none else parseHostPort hostPort)
  let (username, password) := parseCredentials credentials
  pure
    { scheme
      username
      password
      host := some host
      port := port.filter fun port ↦ (scheme, port.1) ∉ DEFAULT_PORTS
      path := .segments (parsePath path) }

def newURL : UrlParser := fun text ↦
  let (scheme, rest) := cut (fun c ↦ c = ':') text.toList
  if isScheme scheme then
    match rest with
    | ':' :: '/' :: '/' :: rest => parseAuthority (String.ofList (scheme.map Char.toLower)) rest
    | ':' :: '/' :: rest => some ⟨String.ofList (scheme.map Char.toLower), "", "", none, none,
        .segments (parsePath ('/' :: rest))⟩
    | ':' :: rest => some ⟨String.ofList (scheme.map Char.toLower), "", "", none, none,
        .opaque_ (String.ofList (percentEncode isC0ControlOrHigh
          (rest.takeWhile fun c ↦ !endsPath c)))⟩
    | _ => none
  else none

/-! ## Texts with an authority -/

section Parts

variable {p : UrlParts}

def portChars (port : Option (Fin 65536)) : List Char :=
  match port with
  | none => []
  | some port => ':' :: port.1.repr.toList

def pathChars (segment : Option String) : List Char :=
  match segment with
  | none => []
  | some segment => '/' :: segment.toList

def credentialChars (p : UrlParts) : Option (List Char) :=
  match p.username, p.password with
  | none, none => none
  | some username, none => some username.toList
  | username, some password => some ((username.getD "").toList ++ ':' :: password.toList)

def hostPortChars (p : UrlParts) : List Char := p.host.text.toList ++ portChars p.port

def authorityChars (p : UrlParts) : List Char :=
  match credentialChars p with
  | none => hostPortChars p
  | some credentials => credentials ++ '@' :: hostPortChars p

theorem text_toList (p : UrlParts) :
    p.text.toList =
      p.scheme.toList ++ ':' :: '/' :: '/' :: (authorityChars p ++ pathChars p.segment) := by
  obtain ⟨scheme, username, password, host, port, segment⟩ := p
  cases username <;> cases password <;> cases port <;> cases segment <;>
    simp [UrlParts.text, UrlParts.userinfo, UrlParts.portSuffix, UrlParts.pathSuffix,
      authorityChars, credentialChars, hostPortChars, portChars, pathChars]

theorem parsePort_portChars (port : Option (Fin 65536)) :
    parsePort (portChars port) = some port := by
  cases port with
  | none => rfl
  | some port =>
      have hdigits : ∀ c ∈ port.1.repr.toList, c.isDigit = true := fun c hc ↦
        JsNumber.isDigit_of_mem_repr hc
      have hne : port.1.repr.toList ≠ [] := by simp
      have hvalue : Nat.ofDigitChars 10 port.1.repr.toList 0 = port.1 := by simp
      unfold portChars parsePort
      split
      · next h => simp at h
      · next h => simp_all
      · next digits _ h =>
          obtain ⟨-, rfl⟩ := List.cons.inj h
          rw [if_pos (List.all_eq_true.mpr hdigits), dif_pos (by rw [hvalue]; exact port.2)]
          simp
      · next h => simp_all

theorem hostText_chars (host : HostName) :
    hostText isHostChar ne_bracket_of_isHostChar host.text.toList =
      some ⟨host.text, hostText_of_isHostName host.valid⟩ := by
  rw [hostText, dif_pos (List.all_eq_true.mpr fun c hc ↦ host.isHostChar_of_mem hc)]
  simp

theorem parseHostPort_chars (p : UrlParts) :
    parseHostPort (hostPortChars p) = some (p.host.toHost, p.port) := by
  have hne : p.host.text.toList ≠ [] := by simpa using p.host.text_ne_empty
  have hcut : cut (fun c ↦ c = ':') (hostPortChars p) =
      (p.host.text.toList, portChars p.port) := by
    apply cut_append
    · intro c hc
      rw [decide_eq_false_iff_not]
      rintro rfl
      exact absurd (p.host.isHostChar_of_mem hc) (by decide)
    · cases p.port <;> simp [portChars]
  have hhead : (hostPortChars p).head? ≠ some '[' := by
    rw [hostPortChars, List.head?_append_of_ne_nil _ hne]
    intro hbracket
    exact absurd (p.host.isHostChar_of_mem (List.mem_of_mem_head? hbracket)) (by decide)
  rw [parseHostPort, if_neg hhead, hcut]
  simp only [hne, false_and, if_false, hostText_chars, parsePort_portChars]
  rfl

theorem mem_credential {s : String} (h : isCredentialText s = true) {c : Char}
    (hc : c ∈ s.toList) : isUrlDelimiter c = false := by
  simp only [isCredentialText, List.all_eq_true, Bool.and_eq_true, Bool.not_eq_true'] at h
  exact (h c hc).2

theorem ne_of_isUrlDelimiter {c d : Char} (hc : isUrlDelimiter c = false)
    (hd : isUrlDelimiter d = true) : c ≠ d := by
  rintro rfl
  rw [hc] at hd
  exact Bool.noConfusion hd

theorem parseCredentials_chars (hp : p.WellFormed) :
    parseCredentials (credentialChars p) =
      (encodeUserinfo (p.username.getD ""), encodeUserinfo (p.password.getD "")) := by
  obtain ⟨scheme, username, password, host, port, segment⟩ := p
  have hkept : ∀ c ∈ (username.getD "").toList, decide (c = ':') = false := by
    cases username with
    | none => simp
    | some username =>
        intro c hc
        rw [decide_eq_false_iff_not]
        exact ne_of_isUrlDelimiter (mem_credential (hp.username username rfl) hc) (by decide)
  cases password with
  | none =>
      have hcut : cut (fun c ↦ c = ':') ((username.getD "").toList ++ []) =
          ((username.getD "").toList, []) := cut_append hkept (by simp)
      cases username with
      | none => rfl
      | some username =>
          simp only [List.append_nil, Option.getD_some] at hcut
          simp only [parseCredentials, credentialChars, Option.getD_some, hcut]
          simp
  | some password =>
      have hcut : cut (fun c ↦ c = ':') ((username.getD "").toList ++ ':' :: password.toList) =
          ((username.getD "").toList, ':' :: password.toList) := cut_append hkept (by simp)
      simp only [parseCredentials, credentialChars, Option.getD_some, hcut]
      simp

/-- The characters that may stand between the credentials and the path. -/
theorem mem_hostPort {c : Char} (h : c ∈ hostPortChars p) :
    isHostChar c = true ∨ c = ':' := by
  rcases List.mem_append.mp h with hhost | hport
  · exact .inl (p.host.isHostChar_of_mem hhost)
  · cases hp : p.port with
    | none =>
        rw [hp] at hport
        exact absurd hport (by simp [portChars])
    | some port =>
        rw [hp] at hport
        rcases List.mem_cons.mp hport with rfl | hdigit
        · exact .inr rfl
        · have hc := JsNumber.isDigit_of_mem_repr hdigit
          exact .inl (by simp [isHostChar, Char.isAlphanum, hc])

theorem ne_of_mem_hostPort {c d : Char} (h : c ∈ hostPortChars p) (hd : isHostChar d = false)
    (hcolon : d ≠ ':') : c ≠ d := by
  rintro rfl
  rcases mem_hostPort h with hchar | rfl
  · rw [hd] at hchar
    exact Bool.noConfusion hchar
  · exact hcolon rfl

theorem cutCredentials_chars (p : UrlParts) :
    cutCredentials (authorityChars p) = (credentialChars p, hostPortChars p) := by
  have hhost : ∀ c ∈ hostPortChars p, c ≠ '@' := fun c hc ↦
    ne_of_mem_hostPort hc (by decide) (by decide)
  unfold authorityChars
  split
  · next h => rw [cutCredentials_none hhost, h]
  · next credentials h => rw [cutCredentials_some hhost, h]

theorem not_isAuthorityEnd {c : Char} (hslash : c ≠ '/') (hquery : c ≠ '?')
    (hfragment : c ≠ '#') : isAuthorityEnd c = false := by
  simp [isAuthorityEnd, hslash, hquery, hfragment]

theorem not_isAuthorityEnd_of_credential {s : String} (h : isCredentialText s = true) {c : Char}
    (hc : c ∈ s.toList) : isAuthorityEnd c = false := by
  have hdelimiter := mem_credential h hc
  exact not_isAuthorityEnd (ne_of_isUrlDelimiter hdelimiter (by decide))
    (ne_of_isUrlDelimiter hdelimiter (by decide)) (ne_of_isUrlDelimiter hdelimiter (by decide))

theorem mem_credentialChars (hp : p.WellFormed) {credentials : List Char}
    (h : credentialChars p = some credentials) {c : Char} (hc : c ∈ credentials) :
    isAuthorityEnd c = false := by
  obtain ⟨scheme, username, password, host, port, segment⟩ := p
  have hname : ∀ c ∈ (username.getD "").toList, isAuthorityEnd c = false := by
    cases username with
    | none => simp
    | some username =>
        intro c hc
        exact not_isAuthorityEnd_of_credential (hp.username username rfl) hc
  cases password with
  | none =>
      cases username with
      | none => simp [credentialChars] at h
      | some username =>
          obtain rfl := Option.some.inj h
          exact hname c hc
  | some password =>
      have hpassword : credentials = (username.getD "").toList ++ ':' :: password.toList := by
        cases username <;> exact (Option.some.inj h).symm
      rw [hpassword] at hc
      rcases List.mem_append.mp hc with hc | hc
      · exact hname c hc
      · rcases List.mem_cons.mp hc with rfl | hc
        · decide
        · exact not_isAuthorityEnd_of_credential (hp.password password rfl) hc

theorem cut_authority (hp : p.WellFormed) :
    cut isAuthorityEnd (authorityChars p ++ pathChars p.segment) =
      (authorityChars p, pathChars p.segment) := by
  apply cut_append
  · intro c hc
    have hhost : ∀ c ∈ hostPortChars p, isAuthorityEnd c = false := fun c hc ↦
      not_isAuthorityEnd (ne_of_mem_hostPort hc (by decide) (by decide))
        (ne_of_mem_hostPort hc (by decide) (by decide))
        (ne_of_mem_hostPort hc (by decide) (by decide))
    unfold authorityChars at hc
    split at hc
    · exact hhost c hc
    · next credentials h =>
        rcases List.mem_append.mp hc with hc | hc
        · exact mem_credentialChars hp h hc
        · rcases List.mem_cons.mp hc with rfl | hc
          · decide
          · exact hhost c hc
  · cases p.segment <;> simp [pathChars, isAuthorityEnd]

theorem not_pathEncoded_of_isDigit {c : Char} (h : c.isDigit = true) : pathEncoded c = false :=
  JsNumber.of_isDigit (p := fun c ↦ pathEncoded c = false) (by decide) h

theorem parsePath_chars (hp : p.WellFormed) : parsePath (pathChars p.segment) =
    p.segment.toList := by
  cases hsegment : p.segment with
  | none => rfl
  | some segment =>
      have hdigits := hp.segment segment hsegment
      have hpath : ∀ c ∈ '/' :: segment.toList, (!endsPath c) = true := by
        intro c hc
        rcases List.mem_cons.mp hc with rfl | hc
        · decide
        · have hquery : c ≠ '?' := JsNumber.ne_of_isDigit (hdigits c hc) (by decide)
          have hfragment : c ≠ '#' := JsNumber.ne_of_isDigit (hdigits c hc) (by decide)
          simp [endsPath, hquery, hfragment]
      have hslash : ∀ c ∈ segment.toList, decide (c = '/') = false := fun c hc ↦
        decide_eq_false (JsNumber.ne_of_isDigit (hdigits c hc) (by decide))
      have hencode : percentEncode pathEncoded segment.toList = segment.toList :=
        percentEncode_eq_self_iff.mpr fun c hc ↦ not_pathEncoded_of_isDigit (hdigits c hc)
      have hplain : ∀ s ∈ [segment.toList], isSingleDot s = false ∧ isDoubleDot s = false := by
        intro s hs
        rw [List.mem_singleton] at hs
        subst hs
        apply not_dot_of_head
        intro c hc
        exact JsNumber.of_isDigit (p := fun c ↦ c.toLower ≠ '.' ∧ c.toLower ≠ '%') (by decide)
          (hdigits c (List.mem_of_mem_head? hc))
      rw [parsePath, pathChars, List.takeWhile_eq_self_iff.mpr hpath]
      simp only [List.splitOnP_eq_singleton hslash, List.map_cons, List.map_nil, hencode,
        resolve_plain hplain]
      simp

end Parts

/-- A scheme that is written in lower case. -/
structure LowerScheme (scheme : String) : Prop where
  valid : isScheme scheme.toList = true
  lower : String.ofList (scheme.toList.map Char.toLower) = scheme
  colon : ∀ c ∈ scheme.toList, decide (c = ':') = false

theorem newURL_text {p : UrlParts} (hp : p.WellFormed) {scheme : String}
    (hscheme : LowerScheme scheme) :
    newURL { p with scheme }.text = some { p.url with
      scheme
      port := p.port.filter fun port ↦ (scheme, port.1) ∉ DEFAULT_PORTS } := by
  have hpath := parsePath_chars hp
  have hcut : cut (fun c ↦ c = ':') { p with scheme }.text.toList = (scheme.toList,
      ':' :: '/' :: '/' :: (authorityChars p ++ pathChars p.segment)) := by
    rw [text_toList]
    exact cut_append hscheme.colon (by simp)
  have hne : hostPortChars p ≠ [] := by
    simp [hostPortChars, p.host.text_ne_empty]
  simp only [newURL, hcut, hscheme.valid, if_true, hscheme.lower, parseAuthority,
    cut_authority hp, cutCredentials_chars, hne, parseHostPort_chars, parseCredentials_chars hp,
    hpath, false_and, if_false, Option.bind_eq_bind, Option.bind_some]
  rfl

/-- The parser keeps the parts of a text as they are written. -/
theorem newURL_splitsParts : newURL.SplitsParts := by
  intro p hp
  have hscheme : LowerScheme p.scheme := by
    rcases hp.scheme with h | h <;> rw [h] <;>
      exact ⟨by decide, by decide, List.all_iff_forall_prop.mp (by decide)⟩
  have hports : p.port.filter (fun port ↦ (p.scheme, port.1) ∉ DEFAULT_PORTS) = p.port := by
    have hdefault : ∀ port : Fin 65536, (p.scheme, port.1) ∉ DEFAULT_PORTS := by
      intro port
      rcases hp.scheme with h | h <;> simp [h, DEFAULT_PORTS]
    cases p.port <;> simp [hdefault]
  have htext := newURL_text hp hscheme
  rw [hports] at htext
  exact htext

end NestQueueExample.UrlParser
