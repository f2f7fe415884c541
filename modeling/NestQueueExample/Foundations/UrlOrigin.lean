import NestQueueExample.Foundations.UrlParser

/-!
# Origins of URLs

The origin of a URL is a tuple only for some schemes, and for a `blob` URL
through the URL in its path; every other URL has the opaque origin, which is
written `null`. What the URL standard says of the URLs of those schemes is
enough for the text of a tuple origin to be a URL with that same origin.
-/

namespace NestQueueExample

open UrlParser

def Host.text : Host → String
  | .name text => text.1
  | .ipv6 address => "[" ++ address.1 ++ "]"

def portSuffix : Option (Fin 65536) → String
  | none => ""
  | some port => ":" ++ port.1.repr

/-- A character that ends the host of a URL of such a scheme. -/
def isOriginDelimiter (c : Char) : Bool := ['/', '\\', '?', '#', '@'].contains c

/-- The text is `scheme://host`, or `scheme://host:port`. -/
def IsTupleOrigin (s : String) : Prop :=
  ∃ scheme host port, scheme ∈ Url.SPECIAL_ORIGIN_SCHEMES ∧ host ≠ "" ∧
    (∀ c ∈ host.toList, isOriginDelimiter c = false) ∧
    s = scheme ++ "://" ++ host ++ portSuffix port

/-- The URL has a scheme with tuple origins, or is a `blob` URL of an HTTP
origin. -/
def Url.HasTupleOrigin (newURL : UrlParser) (u : Url) : Prop :=
  u.scheme ∈ Url.SPECIAL_ORIGIN_SCHEMES ∨
    u.scheme = "blob" ∧ ∃ inner, newURL u.pathname = some inner ∧
      (inner.scheme = "http" ∨ inner.scheme = "https")

def IsExplicitPort (scheme : String) (port : Option (Fin 65536)) : Prop :=
  ∀ p ∈ port, (scheme, p.1) ∉ DEFAULT_PORTS

/-- What the URL standard says of the schemes with tuple origins: a URL of such
a scheme has a host, whose serialization is not empty and contains no delimiter,
and a port only where it is not that of the scheme; and a serialized host is
parsed into that host. -/
structure UrlParser.SerializesHosts (newURL : UrlParser) (IsSerialized : Host → Prop) : Prop where
  host {text : String} {u : Url} (h : newURL text = some u)
    (hscheme : u.scheme ∈ Url.SPECIAL_ORIGIN_SCHEMES) :
    ∃ host, u.host = some host ∧ IsSerialized host
  port {text : String} {u : Url} (h : newURL text = some u)
    (hscheme : u.scheme ∈ Url.SPECIAL_ORIGIN_SCHEMES) : IsExplicitPort u.scheme u.port
  text {host : Host} (h : IsSerialized host) :
    host.text ≠ "" ∧ ∀ c ∈ host.text.toList, isOriginDelimiter c = false
  read {scheme : String} {host : Host} {port : Option (Fin 65536)}
    (hscheme : scheme ∈ Url.SPECIAL_ORIGIN_SCHEMES) (hhost : IsSerialized host)
    (hport : IsExplicitPort scheme port) :
    ∃ u, newURL (scheme ++ "://" ++ host.text ++ portSuffix port) = some u ∧
      u.scheme = scheme ∧ u.host = some host ∧ u.port = port

namespace Url

variable {newURL : UrlParser} {u : Url}

theorem hostname_of_host {host : Host} (h : u.host = some host) : u.hostname = host.text := by
  cases host <;> simp [hostname, h, Host.text]

theorem tupleOrigin_eq {host : Host} (h : u.host = some host) :
    u.tupleOrigin = u.scheme ++ "://" ++ host.text ++ portSuffix u.port := by
  rw [tupleOrigin, hostname_of_host h]
  cases u.port <;> rfl

theorem origin_of_special (h : u.scheme ∈ SPECIAL_ORIGIN_SCHEMES) :
    origin newURL u = u.tupleOrigin := if_pos h

theorem special_of_http (h : u.scheme = "http" ∨ u.scheme = "https") :
    u.scheme ∈ SPECIAL_ORIGIN_SCHEMES := by
  rcases h with h | h <;> rw [h] <;> decide

/-- A tuple origin is that of a parsed URL whose scheme has tuple origins. -/
theorem HasTupleOrigin.exists_special {text : String} (h : u.HasTupleOrigin newURL)
    (hparsed : newURL text = some u) :
    ∃ text' w, newURL text' = some w ∧ w.scheme ∈ SPECIAL_ORIGIN_SCHEMES ∧
      origin newURL u = w.tupleOrigin := by
  rcases h with hspecial | ⟨hblob, inner, hinner, hhttp⟩
  · exact ⟨text, u, hparsed, hspecial, origin_of_special hspecial⟩
  · refine ⟨u.pathname, inner, hinner, special_of_http hhttp, ?_⟩
    have hnot : u.scheme ∉ SPECIAL_ORIGIN_SCHEMES := by
      rw [hblob]
      decide
    rw [origin, if_neg hnot, if_pos hblob, hinner]
    exact if_pos hhttp

theorem origin_eq_null (h : ¬ u.HasTupleOrigin newURL) : origin newURL u = "null" := by
  rw [HasTupleOrigin, not_or] at h
  rw [origin, if_neg h.1]
  split
  · next hblob =>
      cases hinner : newURL u.pathname with
      | none => rfl
      | some inner => exact if_neg fun hhttp ↦ h.2 ⟨hblob, inner, hinner, hhttp⟩
  · rfl

end Url

theorem IsTupleOrigin.ne_null {s : String} (h : IsTupleOrigin s) : s ≠ "null" := by
  obtain ⟨scheme, host, port, -, -, -, rfl⟩ := h
  intro heq
  have hcolon : ':' ∈ (scheme ++ "://" ++ host ++ portSuffix port).toList := by simp
  rw [heq] at hcolon
  exact absurd hcolon (by decide)

section Standard

variable {newURL : UrlParser} {IsSerialized : Host → Prop}

theorem isTupleOrigin_tupleOrigin (h : newURL.SerializesHosts IsSerialized) {text : String}
    {u : Url} (hparsed : newURL text = some u) (hscheme : u.scheme ∈ Url.SPECIAL_ORIGIN_SCHEMES) :
    IsTupleOrigin u.tupleOrigin := by
  obtain ⟨host, hhost, hserialized⟩ := h.host hparsed hscheme
  obtain ⟨hne, hdelimiters⟩ := h.text hserialized
  exact ⟨u.scheme, host.text, u.port, hscheme, hne, hdelimiters, Url.tupleOrigin_eq hhost⟩

/-- The text of a tuple origin is a URL with that origin. -/
theorem origin_tupleOrigin (h : newURL.SerializesHosts IsSerialized) {text : String}
    {u : Url} (hparsed : newURL text = some u) (hscheme : u.scheme ∈ Url.SPECIAL_ORIGIN_SCHEMES) :
    ∃ w, newURL u.tupleOrigin = some w ∧ Url.origin newURL w = u.tupleOrigin := by
  obtain ⟨host, hhost, hserialized⟩ := h.host hparsed hscheme
  obtain ⟨w, hw, hwscheme, hwhost, hwport⟩ := h.read hscheme hserialized (h.port hparsed hscheme)
  rw [← Url.tupleOrigin_eq hhost] at hw
  refine ⟨w, hw, ?_⟩
  rw [Url.origin_of_special (hwscheme ▸ hscheme), Url.tupleOrigin_eq hwhost,
    Url.tupleOrigin_eq hhost, hwscheme, hwport]

end Standard

/-! ## A parser that asks for host names -/

def namesHost : Option Host → Bool
  | some (.name text) => isHostName text.1
  | _ => false

/-- The parser, but for URLs that should have a host and name none. -/
def newURLWithHost : UrlParser := fun text ↦
  (newURL text).filter fun u ↦ u.scheme ∉ Url.SPECIAL_ORIGIN_SCHEMES ∨ namesHost u.host

theorem newURLWithHost_eq_some_iff {text : String} {u : Url} :
    newURLWithHost text = some u ↔ newURL text = some u ∧
      (u.scheme ∉ Url.SPECIAL_ORIGIN_SCHEMES ∨ namesHost u.host = true) := by
  simp [newURLWithHost, Option.filter_eq_some_iff]

theorem isExplicitPort_none (scheme : String) : IsExplicitPort scheme none := by
  simp [IsExplicitPort]

theorem isExplicitPort_of_parseAuthority {scheme : String} {text : List Char} {u : Url}
    (h : parseAuthority scheme text = some u) : IsExplicitPort u.scheme u.port := by
  simp only [parseAuthority, Option.bind_eq_bind, Option.bind_eq_some_iff] at h
  obtain ⟨⟨host, port⟩, -, hu⟩ := h
  obtain rfl := Option.some.inj hu
  intro p hp
  have hfilter := (Option.filter_eq_some_iff.mp hp).2
  simpa using hfilter

theorem isExplicitPort_of_newURL {text : String} {u : Url} (h : newURL text = some u) :
    IsExplicitPort u.scheme u.port := by
  simp only [newURL] at h
  split at h
  · split at h
    · exact isExplicitPort_of_parseAuthority h
    · obtain rfl := Option.some.inj h
      exact isExplicitPort_none _
    · obtain rfl := Option.some.inj h
      exact isExplicitPort_none _
    · contradiction
  · contradiction

theorem lowerScheme_of_special {scheme : String} (h : scheme ∈ Url.SPECIAL_ORIGIN_SCHEMES) :
    LowerScheme scheme := by
  simp only [Url.SPECIAL_ORIGIN_SCHEMES, List.mem_cons, List.not_mem_nil, or_false] at h
  rcases h with rfl | rfl | rfl | rfl | rfl <;>
    exact ⟨by decide, by decide, List.all_iff_forall_prop.mp (by decide)⟩

theorem not_isOriginDelimiter {c : Char} (h : isHostChar c = true) :
    isOriginDelimiter c = false := by
  rw [Bool.eq_false_iff]
  intro hdelimiter
  simp only [isOriginDelimiter, List.contains_eq_mem, List.mem_cons, List.not_mem_nil, or_false,
    decide_eq_true_eq] at hdelimiter
  rcases hdelimiter with rfl | rfl | rfl | rfl | rfl <;> exact absurd h (by decide)

/-- The parts of a text that is a host and a port alone. -/
def hostParts (host : HostName) (port : Option (Fin 65536)) : UrlParts :=
  ⟨"redis", none, none, host, port, none⟩

theorem text_hostParts (scheme : String) (host : HostName) (port : Option (Fin 65536)) :
    { hostParts host port with scheme }.text =
      scheme ++ "://" ++ host.toHost.text ++ portSuffix port := by
  cases port <;>
    simp [UrlParts.text, hostParts, UrlParts.userinfo, UrlParts.portSuffix, UrlParts.pathSuffix,
      portSuffix, HostName.toHost, Host.text]

theorem wellFormed_hostParts (host : HostName) (port : Option (Fin 65536)) :
    (hostParts host port).WellFormed := by
  constructor
  · exact Or.inl rfl
  · rintro _ ⟨⟩
  · rintro _ ⟨⟩
  · rintro _ ⟨⟩

theorem serializesHosts_newURLWithHost :
    newURLWithHost.SerializesHosts fun host ↦ ∃ name : HostName, host = name.toHost where
  host {text u} h hscheme := by
    obtain ⟨-, hnamed⟩ := newURLWithHost_eq_some_iff.mp h
    have hhost := hnamed.resolve_left (not_not.mpr hscheme)
    cases hu : u.host with
    | none => simp [hu, namesHost] at hhost
    | some host =>
        rw [hu] at hhost
        cases host with
        | ipv6 address => simp [namesHost] at hhost
        | name name => exact ⟨_, rfl, ⟨name.1, hhost⟩, rfl⟩
  port {text u} h _ := isExplicitPort_of_newURL (newURLWithHost_eq_some_iff.mp h).1
  text {host} h := by
    obtain ⟨name, rfl⟩ := h
    exact ⟨name.text_ne_empty, fun c hc ↦ not_isOriginDelimiter (name.isHostChar_of_mem hc)⟩
  read {scheme host port} hscheme hhost hport := by
    obtain ⟨name, rfl⟩ := hhost
    have hparsed := newURL_text (wellFormed_hostParts name port) (lowerScheme_of_special hscheme)
    have hkept : port.filter (fun port ↦ (scheme, port.1) ∉ DEFAULT_PORTS) = port := by
      cases port with
      | none => rfl
      | some port => simp [hport port rfl]
    rw [text_hostParts] at hparsed
    refine ⟨_, newURLWithHost_eq_some_iff.mpr ⟨hparsed, Or.inr name.valid⟩, rfl, rfl, hkept⟩

end NestQueueExample
