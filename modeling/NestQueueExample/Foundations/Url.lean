import NestQueueExample.Foundations.UrlPath

/-!
# URLs

The record that the URL standard parses a text into, with its getters, and what
the standard says of a text with an authority whose scheme is not special: its
components are split as they are written, and of the credentials the characters
that cannot stand in them are escaped.
-/

namespace NestQueueExample

open PercentEncoding

/-- The text of a host; brackets only ever enclose an IPv6 address. -/
def HostText : Type := {s : String // ∀ c ∈ s.toList, c ≠ '[' ∧ c ≠ ']'}

/-- A host: a name or an IPv4 address, possibly empty, or an IPv6 address
without its brackets. -/
inductive Host where
  | name (text : HostText)
  | ipv6 (address : HostText)

inductive Path where
  | opaque_ (text : String)
  | segments (path : List String)

structure Url where
  scheme : String
  username : String
  password : String
  host : Option Host
  port : Option (Fin 65536)
  path : Path

/-- What `new URL` makes of a text; `none` where it throws. -/
abbrev UrlParser : Type := String → Option Url

namespace Url

def protocol (u : Url) : String := u.scheme ++ ":"

def hostname (u : Url) : String :=
  match u.host with
  | none => ""
  | some (.name text) => text.1
  | some (.ipv6 address) => "[" ++ address.1 ++ "]"

def portText (u : Url) : String :=
  match u.port with
  | none => ""
  | some port => port.1.repr

def pathname (u : Url) : String :=
  match u.path with
  | .opaque_ text => text
  | .segments path => String.join (path.map fun segment ↦ "/" ++ segment)

def SPECIAL_ORIGIN_SCHEMES : List String := ["ftp", "http", "https", "ws", "wss"]

def tupleOrigin (u : Url) : String :=
  u.scheme ++ "://" ++ u.hostname ++
    match u.port with
    | none => ""
    | some port => ":" ++ port.1.repr

/-- The serialized origin; a `blob` URL takes that of the URL in its path. -/
def origin (newURL : UrlParser) (u : Url) : String :=
  if u.scheme ∈ SPECIAL_ORIGIN_SCHEMES then u.tupleOrigin
  else if u.scheme = "blob" then
    match newURL u.pathname with
    | some inner => if inner.scheme = "http" ∨ inner.scheme = "https" then inner.tupleOrigin
        else "null"
    | none => "null"
  else "null"

end Url

/-! ## Texts with an authority -/

/-- The userinfo percent-encode set of the URL standard. -/
def userinfoEncoded (c : Char) : Bool :=
  UrlPath.pathEncoded c || ['/', ':', ';', '=', '@', '[', '\\', ']', '|'].contains c

def encodeUserinfo (s : String) : String :=
  String.ofList (percentEncode userinfoEncoded s.toList)

/-- The characters that end a credential or the authority, or that the parser
takes for one. -/
def isUrlDelimiter (c : Char) : Bool :=
  ['/', '?', '#', '@', ':', '[', ']', '\\'].contains c

/-- Neither a control character nor a separator of lines or paragraphs. -/
def isPrintable (c : Char) : Bool :=
  0x20 ≤ c.toNat && !(0x7f ≤ c.toNat && c.toNat ≤ 0x9f) && c != '\u2028' && c != '\u2029'

def isCredentialText (s : String) : Bool :=
  s.toList.all fun c ↦ isPrintable c && !isUrlDelimiter c

def isHostChar (c : Char) : Bool := c.isAlphanum || c = '.' || c = '-'

/-- The name of a host in the DNS, or an IPv4 address. -/
def isHostName (s : String) : Bool := s ≠ "" && s.toList.all isHostChar

theorem ne_bracket_of_isHostChar (c : Char) (h : isHostChar c = true) : c ≠ '[' ∧ c ≠ ']' := by
  constructor
  · rintro rfl
    exact absurd h (by decide)
  · rintro rfl
    exact absurd h (by decide)

theorem hostText_of_isHostName {s : String} (h : isHostName s = true) :
    ∀ c ∈ s.toList, c ≠ '[' ∧ c ≠ ']' := by
  intro c hc
  rw [isHostName, Bool.and_eq_true, List.all_eq_true] at h
  exact ne_bracket_of_isHostChar c (h.2 c hc)

structure HostName where
  text : String
  valid : isHostName text = true

namespace HostName

def toHost (h : HostName) : Host := .name ⟨h.text, hostText_of_isHostName h.valid⟩

theorem text_ne_empty (h : HostName) : h.text ≠ "" := by
  have hvalid := h.valid
  rw [isHostName, Bool.and_eq_true, decide_eq_true_eq] at hvalid
  exact hvalid.1

theorem isHostChar_of_mem (h : HostName) {c : Char} (hc : c ∈ h.text.toList) :
    isHostChar c = true := by
  have hvalid := h.valid
  rw [isHostName, Bool.and_eq_true, List.all_eq_true] at hvalid
  exact hvalid.2 c hc

end HostName

/-- The parts of a URL text, as they are written. -/
structure UrlParts where
  scheme : String
  username : Option String
  password : Option String
  host : HostName
  port : Option (Fin 65536)
  segment : Option String

namespace UrlParts

def userinfo (p : UrlParts) : String :=
  match p.username, p.password with
  | none, none => ""
  | some username, none => username ++ "@"
  | none, some password => ":" ++ password ++ "@"
  | some username, some password => username ++ ":" ++ password ++ "@"

def portSuffix (p : UrlParts) : String :=
  match p.port with
  | none => ""
  | some port => ":" ++ port.1.repr

def pathSuffix (p : UrlParts) : String :=
  match p.segment with
  | none => ""
  | some segment => "/" ++ segment

def text (p : UrlParts) : String :=
  p.scheme ++ "://" ++ p.userinfo ++ p.host.text ++ p.portSuffix ++ p.pathSuffix

structure WellFormed (p : UrlParts) : Prop where
  scheme : p.scheme = "redis" ∨ p.scheme = "rediss"
  username : ∀ username ∈ p.username, isCredentialText username = true
  password : ∀ password ∈ p.password, isCredentialText password = true
  segment : ∀ segment ∈ p.segment, ∀ c ∈ segment.toList, c.isDigit = true

def url (p : UrlParts) : Url where
  scheme := p.scheme
  username := encodeUserinfo (p.username.getD "")
  password := encodeUserinfo (p.password.getD "")
  host := some p.host.toHost
  port := p.port
  path := .segments p.segment.toList

end UrlParts

/-- The components are split as they are written, and the credentials are kept
after the percent-encoding of the characters that cannot stand in them. -/
def UrlParser.SplitsParts (newURL : UrlParser) : Prop :=
  ∀ p : UrlParts, p.WellFormed → newURL p.text = some p.url

end NestQueueExample
