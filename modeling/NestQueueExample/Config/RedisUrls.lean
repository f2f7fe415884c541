import NestQueueExample.Config.QueueConfig

/-!
# Redis URLs

A URL that is assembled from a target with its credentials encoded is parsed
back into the target. Of other URLs the parser checks nothing beyond what
`new URL` does: a host without a name or in brackets, the port 0 and a database
that is no number are handed on. A credential that cannot be decoded is kept in
the form that `new URL` gave it, which is not always the form it was written in.
-/

namespace NestQueueExample.Config

open JsNumber PercentEncoding

abbrev Credential : Type := {s : String // s ≠ ""}

/-- A natural number that is a number of JavaScript. -/
abbrev JsNatural : Type := {n : ℕ // toBinary64 n = .finite n}

structure RedisTarget where
  tls : Bool
  host : HostName
  port : Option (Fin 65536)
  db : Option JsNatural
  username : Option Credential
  password : Option Credential

namespace RedisTarget

def parts (t : RedisTarget) : UrlParts where
  scheme := if t.tls then "rediss" else "redis"
  username := t.username.map fun credential ↦ encodeURIComponent credential.1
  password := t.password.map fun credential ↦ encodeURIComponent credential.1
  host := t.host
  port := t.port
  segment := t.db.map fun db ↦ db.1.repr

def options (t : RedisTarget) : RedisOptions where
  host := t.host.text
  port := .finite (match t.port with | none => DEFAULT_REDIS_PORT | some port => port.1)
  db := t.db.map fun db ↦ .finite db.1
  username := t.username.map Subtype.val
  password := t.password.map Subtype.val
  tls := t.tls

end RedisTarget

/-! ## Encoded credentials -/

theorem safeDecode_encodeURIComponent (s : String) : safeDecode (encodeURIComponent s) = s := by
  rw [safeDecode, decodeURIComponent_encodeURIComponent, Option.getD_some]

theorem not_userinfoEncoded_of_isUnreserved {c : Char} (h : isUnreserved c = true) :
    userinfoEncoded c = false :=
  of_isUnreserved (p := fun c ↦ userinfoEncoded c = false) (by decide) h

theorem not_userinfoEncoded {s : String} {c : Char} (h : c ∈ (encodeURIComponent s).toList) :
    userinfoEncoded c = false := by
  rcases mem_encodeURIComponent h with hunreserved | rfl
  · exact not_userinfoEncoded_of_isUnreserved hunreserved
  · decide

theorem encodeUserinfo_eq_self_iff {s : String} :
    encodeUserinfo s = s ↔ ∀ c ∈ s.toList, userinfoEncoded c = false := by
  have hiff : percentEncode userinfoEncoded s.toList = s.toList ↔
      ∀ c ∈ s.toList, userinfoEncoded c = false := percentEncode_eq_self_iff
  rw [← hiff, encodeUserinfo]
  constructor
  · intro h
    simpa using congrArg String.toList h
  · intro h
    rw [h, String.ofList_toList]

theorem encodeUserinfo_encodeURIComponent (s : String) :
    encodeUserinfo (encodeURIComponent s) = encodeURIComponent s :=
  encodeUserinfo_eq_self_iff.mpr fun _ hc ↦ not_userinfoEncoded hc

theorem isCredentialText_encodeURIComponent (s : String) :
    isCredentialText (encodeURIComponent s) = true := by
  rw [isCredentialText, List.all_eq_true]
  intro c hc
  rcases mem_encodeURIComponent hc with hunreserved | rfl
  · exact of_isUnreserved (p := fun c ↦ (isPrintable c && !isUrlDelimiter c) = true) (by decide)
      hunreserved
  · decide

theorem encodeURIComponent_ne_empty {s : String} (h : s ≠ "") : encodeURIComponent s ≠ "" := by
  intro hempty
  have hself : encodeURIComponent "" = "" := by decide
  exact h (encodeURIComponent_injective (hempty.trans hself.symm))

theorem unlessEmpty_of_ne {α : Type} {s : String} (h : s ≠ "") (f : String → α) :
    unlessEmpty s f = some (f s) := if_neg h

/-- An encoded credential is present with its original text, and an absent one
is absent. -/
theorem decoded_credential (credential : Option Credential) :
    unlessEmpty (encodeUserinfo ((credential.map fun c ↦ encodeURIComponent c.1).getD ""))
      safeDecode = credential.map Subtype.val := by
  cases credential with
  | none => rfl
  | some credential =>
      rw [Option.map_some, Option.getD_some, encodeUserinfo_encodeURIComponent,
        unlessEmpty_of_ne (encodeURIComponent_ne_empty credential.2),
        safeDecode_encodeURIComponent, Option.map_some]

/-! ## Assembled URLs -/

theorem RedisTarget.wellFormed_parts (t : RedisTarget) : t.parts.WellFormed where
  scheme := by
    unfold parts
    cases t.tls
    · exact .inl rfl
    · exact .inr rfl
  username := by
    intro username hmem
    obtain ⟨credential, -, rfl⟩ := Option.map_eq_some_iff.mp hmem
    exact isCredentialText_encodeURIComponent _
  password := by
    intro password hmem
    obtain ⟨credential, -, rfl⟩ := Option.map_eq_some_iff.mp hmem
    exact isCredentialText_encodeURIComponent _
  segment := by
    intro segment hmem c hc
    obtain ⟨db, -, rfl⟩ := Option.map_eq_some_iff.mp hmem
    exact isDigit_of_mem_repr hc

theorem repr_ne_empty (n : ℕ) : n.repr ≠ "" := by
  intro h
  have hlist := congrArg String.toList h
  simp at hlist

theorem ofString_port (port : Fin 65536) : ofString port.1.repr = .finite (port.1 : ℕ) :=
  ofString_natCast (port.2.trans (by decide))

theorem parsed_port (port : Option (Fin 65536)) :
    (unlessEmpty (match port with | none => "" | some port => port.1.repr) ofString).getD
      (.finite DEFAULT_REDIS_PORT) =
        .finite (match port with | none => DEFAULT_REDIS_PORT | some port => port.1) := by
  cases port with
  | none => rfl
  | some port =>
      simp only [unlessEmpty_of_ne (repr_ne_empty port.1), ofString_port, Option.getD_some]

theorem dropFirstSlash_segment (s : String) : dropFirstSlash ("/" ++ s) = s := by
  simp [dropFirstSlash]

theorem parsed_db (db : Option JsNatural) :
    unlessEmpty (dropFirstSlash (String.join
      ((db.map fun db ↦ db.1.repr).toList.map fun segment ↦ "/" ++ segment))) ofString =
        db.map fun db ↦ .finite db.1 := by
  cases db with
  | none => rfl
  | some db =>
      have hjoin : String.join (((some db).map fun db : JsNatural ↦ db.1.repr).toList.map
          fun segment ↦ "/" ++ segment) = "/" ++ db.1.repr := by
        simp [String.join]
      rw [hjoin, dropFirstSlash_segment, unlessEmpty_of_ne (repr_ne_empty db.1), ofString_repr,
        db.2, Option.map_some]

theorem decide_protocol_rediss (tls : Bool) :
    decide ((if tls then "rediss" else "redis") ++ ":" = "rediss:") = tls := by
  cases tls <;> decide

theorem RedisTarget.redisOptions_parts (t : RedisTarget) :
    redisOptions t.parts.url = t.options := by
  have hport := parsed_port t.port
  have hdb := parsed_db t.db
  have husername := decoded_credential t.username
  have hpassword := decoded_credential t.password
  have htls := decide_protocol_rediss t.tls
  rw [options, ← hport, ← hdb, ← husername, ← hpassword]
  conv_rhs => rw [← htls]
  rfl

/-- The options of a URL that was assembled from a target are those of the
target. -/
theorem parseRedisOptions_roundTrip {newURL : UrlParser} (h : newURL.SplitsParts)
    (t : RedisTarget) : parseRedisOptions newURL t.parts.text = .ok t.options := by
  rw [parseRedisOptions, h t.parts t.wellFormed_parts]
  exact congrArg Except.ok t.redisOptions_parts

def securedTarget : RedisTarget where
  tls := true
  host := ⟨"cache", by decide⟩
  port := some 6380
  db := some ⟨1, by simpa using toBinary64_natCast (n := 1) (by norm_num)⟩
  username := some ⟨"user", by decide⟩
  password := some ⟨"p@ss", by decide⟩

theorem parseRedisOptions_securedTarget :
    parseRedisOptions UrlParser.newURL securedTarget.parts.text = .ok securedTarget.options :=
  parseRedisOptions_roundTrip UrlParser.newURL_splitsParts securedTarget

/-! ## Connections -/

structure RedisOptions.Sound (options : RedisOptions) : Prop where
  host : options.host ≠ ""
  brackets : ∀ c ∈ options.host.toList, c ≠ '[' ∧ c ≠ ']'
  port : ∃ n : ℕ, 1 ≤ n ∧ n ≤ 65535 ∧ options.port = .finite n
  db : ∀ db ∈ options.db, ∃ n : ℕ, db = .finite n

/-- Either the factory throws, or the connection is made with sound options,
and with the bare address where the URL has an IPv6 host. -/
def FailsFast {Redis Telemetry : Type} (newURL : UrlParser) (url : String)
    (result : Except ConfigError (BymaxQueueModuleOptions Redis Telemetry)) : Prop :=
  ∀ options, result = .ok options → ∃ redis, options.connection = .options redis ∧
    redis.Sound ∧ ∀ parsed, newURL url = some parsed →
      ∀ address, parsed.host = some (.ipv6 address) → redis.host = address.1

/-- The URL names a host, its port is not 0, and its path is a natural number
or empty. -/
structure NamesRedis (parsed : Url) : Prop where
  host : ∃ name : HostText, parsed.host = some (.name name) ∧ name.1 ≠ ""
  port : parsed.port ≠ some 0
  path : dropFirstSlash parsed.pathname = "" ∨ SpellsNatural (dropFirstSlash parsed.pathname)

theorem bracket_mem_hostname {parsed : Url} {address : HostText}
    (h : parsed.host = some (.ipv6 address)) : '[' ∈ parsed.hostname.toList := by
  simp [Url.hostname, h]

theorem host_sound_iff {parsed : Url} :
    (parsed.hostname ≠ "" ∧ ∀ c ∈ parsed.hostname.toList, c ≠ '[' ∧ c ≠ ']') ↔
      ∃ name : HostText, parsed.host = some (.name name) ∧ name.1 ≠ "" := by
  constructor
  · rintro ⟨hne, hbrackets⟩
    cases hhost : parsed.host with
    | none => exact absurd (by simp [Url.hostname, hhost]) hne
    | some host =>
        cases host with
        | name name => exact ⟨name, rfl, by simpa [Url.hostname, hhost] using hne⟩
        | ipv6 address => exact absurd rfl (hbrackets '[' (bracket_mem_hostname hhost)).1
  · rintro ⟨name, hhost, hne⟩
    have hname : parsed.hostname = name.1 := by
      simp [Url.hostname, hhost]
    rw [hname]
    exact ⟨hne, name.2⟩

theorem port_sound_iff (port : Option (Fin 65536)) :
    (∃ n : ℕ, 1 ≤ n ∧ n ≤ 65535 ∧
        (unlessEmpty (match port with | none => "" | some port => port.1.repr) ofString).getD
          (.finite DEFAULT_REDIS_PORT) = .finite n) ↔ port ≠ some 0 := by
  rw [parsed_port]
  cases port with
  | none =>
      exact iff_of_true ⟨DEFAULT_REDIS_PORT, by decide, by decide, rfl⟩ (by simp)
  | some port =>
      have hlt := port.2
      constructor
      · rintro ⟨n, hn, -, heq⟩ hzero
        obtain rfl := Option.some.inj hzero
        have hcast : ((0 : ℕ) : ℚ) = n := JsNumber.finite.inj heq
        have : 0 = n := Nat.cast_injective hcast
        omega
      · intro hne
        have hpos : port.1 ≠ 0 := fun hzero ↦ hne (congrArg some (Fin.ext hzero))
        exact ⟨port.1, by omega, by omega, rfl⟩

theorem db_sound_iff (path : String) :
    (∀ db ∈ unlessEmpty path ofString, ∃ n : ℕ, db = .finite n) ↔
      path = "" ∨ SpellsNatural path := by
  rw [spellsNatural_iff]
  by_cases hempty : path = ""
  · simp [hempty, unlessEmpty]
  · simp [hempty, unlessEmpty]

theorem sound_redisOptions_iff {parsed : Url} :
    (redisOptions parsed).Sound ↔ NamesRedis parsed := by
  constructor
  · intro h
    exact ⟨host_sound_iff.mp ⟨h.host, h.brackets⟩, (port_sound_iff parsed.port).mp h.port,
      (db_sound_iff _).mp h.db⟩
  · intro h
    obtain ⟨hne, hbrackets⟩ := host_sound_iff.mpr h.host
    exact ⟨hne, hbrackets, (port_sound_iff parsed.port).mpr h.port, (db_sound_iff _).mpr h.path⟩

section Connection

variable {Redis Telemetry : Type} {newURL : UrlParser} {env : AppEnv}
  {sharedClient : Option Redis} {buildTelemetry : Except ConfigError Telemetry}

theorem selectConnection_own_options (hmode : env.QUEUE_CONNECTION_MODE = .own)
    (hstyle : env.QUEUE_CONNECTION_STYLE = .options) :
    selectConnection newURL env sharedClient =
      (parseRedisOptions newURL env.REDIS_URL).map .options := by
  simp only [selectConnection, hmode, hstyle]

/-- A connection and telemetry that do not throw make options. -/
theorem exists_buildQueueOptions {connection : QueueConnectionConfig Redis}
    (hconnection : selectConnection newURL env sharedClient = .ok connection)
    (htelemetry : ¬ (env.QUEUE_OTEL = true ∧ ∃ error, buildTelemetry = .error error)) :
    ∃ options, buildQueueOptions newURL env sharedClient buildTelemetry = .ok options ∧
      options.connection = connection := by
  unfold buildQueueOptions
  rw [hconnection]
  cases hotel : env.QUEUE_OTEL with
  | false => exact ⟨_, rfl, rfl⟩
  | true =>
      cases buildTelemetry with
      | error error => exact absurd ⟨hotel, error, rfl⟩ htelemetry
      | ok telemetry => exact ⟨_, rfl, rfl⟩

theorem buildQueueOptions_telemetry_error (hotel : env.QUEUE_OTEL = true) {error : ConfigError}
    (herror : buildTelemetry = .error error)
    (options : BymaxQueueModuleOptions Redis Telemetry) :
    buildQueueOptions newURL env sharedClient buildTelemetry ≠ .ok options := by
  intro h
  obtain ⟨connection, -, hrest⟩ := exists_of_bind_ok h
  obtain ⟨telemetry, htelemetry, -⟩ := exists_of_bind_ok hrest
  rw [if_pos hotel, herror] at htelemetry
  contradiction

/-- Options that were made connect to what the URL was parsed into. -/
theorem connection_of_buildQueueOptions (hmode : env.QUEUE_CONNECTION_MODE = .own)
    (hstyle : env.QUEUE_CONNECTION_STYLE = .options)
    {options : BymaxQueueModuleOptions Redis Telemetry}
    (h : buildQueueOptions newURL env sharedClient buildTelemetry = .ok options) :
    ∃ parsed, newURL env.REDIS_URL = some parsed ∧
      options.connection = .options (redisOptions parsed) := by
  obtain ⟨hconnection, -⟩ := buildQueueOptions_ok h
  rw [selectConnection_own_options hmode hstyle, parseRedisOptions] at hconnection
  cases hparsed : newURL env.REDIS_URL with
  | none =>
      rw [hparsed] at hconnection
      contradiction
  | some parsed =>
      rw [hparsed] at hconnection
      exact ⟨parsed, rfl, (Except.ok.inj hconnection).symm⟩

/-- What the factory fails fast on is a text that is no URL; of the URLs it is
only those that name a Redis which it connects to as they say. -/
theorem failsFast_iff (hmode : env.QUEUE_CONNECTION_MODE = .own)
    (hstyle : env.QUEUE_CONNECTION_STYLE = .options) :
    FailsFast newURL env.REDIS_URL
        (buildQueueOptions newURL env sharedClient buildTelemetry) ↔
      (env.QUEUE_OTEL = true ∧ ∃ error, buildTelemetry = .error error) ∨
        ∀ parsed, newURL env.REDIS_URL = some parsed → NamesRedis parsed := by
  constructor
  · intro h
    rw [or_iff_not_imp_left]
    intro htelemetry parsed hparsed
    have hselect : selectConnection newURL env sharedClient =
        (parseRedisOptions newURL env.REDIS_URL).map .options :=
      selectConnection_own_options hmode hstyle
    rw [parseRedisOptions, hparsed] at hselect
    obtain ⟨options, hoptions, hconnection⟩ := exists_buildQueueOptions hselect htelemetry
    obtain ⟨redis, hredis, hsound, -⟩ := h options hoptions
    obtain rfl := QueueConnectionConfig.options.inj (hconnection.symm.trans hredis)
    exact sound_redisOptions_iff.mp hsound
  · rintro (⟨hotel, error, herror⟩ | hnames) options hoptions
    · exact absurd hoptions (buildQueueOptions_telemetry_error hotel herror options)
    · obtain ⟨parsed, hparsed, hconnection⟩ :=
        connection_of_buildQueueOptions hmode hstyle hoptions
      have hnamed := hnames parsed hparsed
      refine ⟨redisOptions parsed, hconnection, sound_redisOptions_iff.mpr hnamed, ?_⟩
      intro parsed' hparsed' address haddress
      obtain rfl := Option.some.inj (hparsed.symm.trans hparsed')
      obtain ⟨name, hname, -⟩ := hnamed.host
      rw [hname] at haddress
      exact Host.noConfusion (Option.some.inj haddress)

end Connection

def optionsSource (url : String) : JsValue :=
  .object [(.own "REDIS_URL", .string url), (.own "QUEUE_CONNECTION_STYLE", .string "options")]

def optionsEnv (url : String) : AppEnv :=
  { defaultEnv with REDIS_URL := url, QUEUE_CONNECTION_STYLE := .options }

theorem parseEnv_optionsSource {url : String} (h : (StringCheck.min 1).holds url = true) :
    parseEnv defaultPlatform (optionsSource url) = .ok (optionsEnv url) := by
  have hchecks : [StringCheck.min 1].all (fun check ↦ check.holds url) = true := by
    simpa using h
  have hmember : "options" ∈ ["url", "options"] := by decide
  have hne : "options" ≠ "url" := by decide
  rw [parseEnv_ok_iff]
  simp (disch := decide) only [defaultPlatform, Zod.ofParse, envSchema, optionsSource,
    Schema.parse, Fields.parse, JsValue.read_nil, JsValue.read_own, JsValue.read_own_of_ne, hchecks,
    hmember, hne, styleSchema, webhookFailuresSchema, webOriginSchema, booleanFlag, if_true,
    if_false, dite_true, Except.map, defaultOrigin, optionsEnv, defaultEnv]

theorem failsFast_securedTarget :
    FailsFast UrlParser.newURL securedTarget.parts.text
      (buildQueueOptions UrlParser.newURL (optionsEnv securedTarget.parts.text)
        (none : Option Unit) (.ok ())) := by
  have hparsed := UrlParser.newURL_splitsParts _ securedTarget.wellFormed_parts
  have hdb : dropFirstSlash securedTarget.parts.url.pathname = (1 : ℕ).repr := by decide
  have hnames : NamesRedis securedTarget.parts.url := by
    refine ⟨⟨_, rfl, by decide⟩, by decide, .inr ?_⟩
    rw [hdb]
    exact spellsNatural_iff.mpr ⟨1, ofString_natCast (by norm_num)⟩
  refine (failsFast_iff rfl rfl).mpr (.inr ?_)
  intro parsed h
  obtain rfl := Option.some.inj (hparsed.symm.trans h)
  exact hnames

/-- A host and a port without a scheme are a URL, which has no host. -/
theorem schemeless_connects_elsewhere :
    parseEnv defaultPlatform (optionsSource "localhost:6379") =
        .ok (optionsEnv "localhost:6379") ∧
      ¬ FailsFast UrlParser.newURL "localhost:6379"
        (buildQueueOptions UrlParser.newURL (optionsEnv "localhost:6379")
          (none : Option Unit) (.ok ())) := by
  refine ⟨parseEnv_optionsSource (by decide), ?_⟩
  intro h
  obtain ⟨redis, hredis, hsound, -⟩ := h _ rfl
  obtain rfl := QueueConnectionConfig.options.inj hredis
  exact hsound.host rfl

/-! ## Credentials as they are written -/

inductive CredentialKind where
  | username
  | password

namespace CredentialKind

def written : CredentialKind → UrlParts → Option String
  | .username, p => p.username
  | .password, p => p.password

def parsed : CredentialKind → RedisOptions → Option String
  | .username, options => options.username
  | .password, options => options.password

end CredentialKind

theorem decodeURIComponent_encodeUserinfo (s : String) :
    decodeURIComponent (encodeUserinfo s) = decodeURIComponent s := by
  have hhex : ∀ c, isHexDigit c = true → userinfoEncoded c = false := fun c hc ↦
    not_userinfoEncoded_of_isUnreserved (isUnreserved_of_isHexDigit hc)
  have hkeeps := percentDecode_percentEncode_of_keeps (by decide) hhex s.toList
  rw [decodeURIComponent, decodeURIComponent, encodeUserinfo, String.toList_ofList, hkeeps]

theorem safeDecode_of_none {s : String} (h : decodeURIComponent s = none) : safeDecode s = s := by
  rw [safeDecode, h, Option.getD_none]

/-- What cannot be decoded is returned as `new URL` encoded it. -/
theorem undecodable_credential {c : String} (h : decodeURIComponent c = none) :
    unlessEmpty (encodeUserinfo c) safeDecode = some (encodeUserinfo c) := by
  have hencoded : decodeURIComponent (encodeUserinfo c) = none := by
    rw [decodeURIComponent_encodeUserinfo, h]
  have hne : encodeUserinfo c ≠ "" := by
    intro hempty
    rw [hempty, decodeURIComponent_eq_self (by simp)] at hencoded
    contradiction
  rw [unlessEmpty_of_ne hne, safeDecode_of_none hencoded]

theorem parsed_redisOptions {p : UrlParts} {kind : CredentialKind} {c : String}
    (h : kind.written p = some c) :
    kind.parsed (redisOptions p.url) = unlessEmpty (encodeUserinfo c) safeDecode := by
  have hgetD : (kind.written p).getD "" = c := by
    rw [h, Option.getD_some]
  rw [← hgetD]
  cases kind with
  | username => rfl
  | password => rfl

theorem parsed_undecodable {newURL : UrlParser} (h : newURL.SplitsParts) {p : UrlParts}
    (hp : p.WellFormed) {kind : CredentialKind} {c : String} (hwritten : kind.written p = some c)
    (hthrows : decodeURIComponent c = none) :
    (parseRedisOptions newURL p.text).map kind.parsed = .ok (some (encodeUserinfo c)) := by
  rw [parseRedisOptions, h p hp, ← undecodable_credential hthrows, ← parsed_redisOptions hwritten]
  rfl

/-- A credential that cannot be decoded is kept verbatim exactly when `new URL`
does not encode any of its characters. -/
theorem undecodable_credential_verbatim_iff {newURL : UrlParser} (h : newURL.SplitsParts)
    {p : UrlParts} (hp : p.WellFormed) {kind : CredentialKind} {c : String}
    (hwritten : kind.written p = some c) (hthrows : decodeURIComponent c = none) :
    (parseRedisOptions newURL p.text).map kind.parsed = .ok (some c) ↔
      ∀ x ∈ c.toList, userinfoEncoded x = false := by
  rw [parsed_undecodable h hp hwritten hthrows, ← encodeUserinfo_eq_self_iff]
  constructor
  · intro hkept
    exact Option.some.inj (Except.ok.inj hkept)
  · intro hself
    rw [hself]

def passwordParts (password : String) : UrlParts where
  scheme := "redis"
  username := some "user"
  password := some password
  host := ⟨"cache", by decide⟩
  port := some 6379
  segment := none

theorem wellFormed_passwordParts {password : String} (h : isCredentialText password = true) :
    (passwordParts password).WellFormed where
  scheme := .inl rfl
  username := by
    rintro _ ⟨⟩
    decide
  password := by
    rintro _ ⟨⟩
    exact h
  segment := by
    rintro _ ⟨⟩

theorem decodeURIComponent_stray_zz : decodeURIComponent "pa%zzss" = none := by
  have hs : "pa%zzss".toList = ['p', 'a'] ++ '%' :: ['z', 'z', 's', 's'] := by decide
  refine decodeURIComponent_eq_none hs (by decide) ?_
  rintro _ _ _ ⟨⟩
  exact .inl (by decide)

theorem stray_zz_verbatim :
    (parseRedisOptions UrlParser.newURL (passwordParts "pa%zzss").text).map
      CredentialKind.password.parsed = .ok (some "pa%zzss") :=
  (undecodable_credential_verbatim_iff UrlParser.newURL_splitsParts
    (wellFormed_passwordParts (by decide)) rfl decodeURIComponent_stray_zz).mpr
    (List.all_iff_forall_prop.mp (by decide))

/-- A space is escaped by `new URL`, and stays escaped. -/
theorem stray_space_not_verbatim :
    (passwordParts "50% off").WellFormed ∧ decodeURIComponent "50% off" = none ∧
      (parseRedisOptions UrlParser.newURL (passwordParts "50% off").text).map
        CredentialKind.password.parsed ≠ .ok (some "50% off") := by
  have hwellFormed : (passwordParts "50% off").WellFormed := wellFormed_passwordParts (by decide)
  have hthrows : decodeURIComponent "50% off" = none := by
    have hs : "50% off".toList = ['5', '0'] ++ '%' :: [' ', 'o', 'f', 'f'] := by decide
    refine decodeURIComponent_eq_none hs (by decide) ?_
    rintro _ _ _ ⟨⟩
    exact .inl (by decide)
  refine ⟨hwellFormed, hthrows, ?_⟩
  have hparsed := parsed_undecodable UrlParser.newURL_splitsParts hwellFormed
    (rfl : CredentialKind.password.written _ = _) hthrows
  rw [hparsed]
  intro h
  have hspace := encodeUserinfo_eq_self_iff.mp (Option.some.inj (Except.ok.inj h)) ' ' (by decide)
  exact absurd hspace (by decide)

end NestQueueExample.Config
