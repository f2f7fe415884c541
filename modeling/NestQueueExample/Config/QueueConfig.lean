import NestQueueExample.Config.Env
import NestQueueExample.Foundations.JsNumber

/-!
# Options of the queue library

The factory that maps the environment to the options of the library, and the
parser that turns a Redis URL into discrete connection options.
-/

namespace NestQueueExample.Config

open PercentEncoding

def DEFAULT_JOB_ATTEMPTS : ℕ := 4
def BACKOFF_BASE_DELAY_MS : ℕ := 1500
def METRICS_CACHE_TTL_MS : ℕ := 3000
def DEFAULT_REDIS_PORT : ℕ := 6379

def safeDecode (value : String) : String := (decodeURIComponent value).getD value

structure RedisOptions where
  host : String
  port : JsNumber
  db : Option JsNumber
  username : Option String
  password : Option String
  tls : Bool

/-- The call `replace('/', '')`: the first slash goes. -/
def dropFirstSlash (s : String) : String := String.ofList (s.toList.erase '/')

def unlessEmpty {α : Type} (s : String) (f : String → α) : Option α :=
  if s = "" then none else some (f s)

/-- The options read off a parsed URL. -/
def redisOptions (parsed : Url) : RedisOptions where
  host := parsed.hostname
  port := (unlessEmpty parsed.portText JsNumber.ofString).getD (.finite DEFAULT_REDIS_PORT)
  db := unlessEmpty (dropFirstSlash parsed.pathname) JsNumber.ofString
  username := unlessEmpty parsed.username safeDecode
  password := unlessEmpty parsed.password safeDecode
  tls := parsed.protocol = "rediss:"

inductive ConfigError where
  | invalidUrl (input : String)
  | telemetry (reason : String)
  deriving DecidableEq

def parseRedisOptions (newURL : UrlParser) (url : String) : Except ConfigError RedisOptions :=
  match newURL url with
  | some parsed => .ok (redisOptions parsed)
  | none => .error (.invalidUrl url)

inductive QueueConnectionConfig (Redis : Type) where
  | client (client : Redis)
  | options (options : RedisOptions)
  | url (url : String)

def selectConnection {Redis : Type} (newURL : UrlParser) (env : AppEnv)
    (sharedClient : Option Redis) : Except ConfigError (QueueConnectionConfig Redis) :=
  match env.QUEUE_CONNECTION_MODE, sharedClient with
  | .shared, some client => .ok (.client client)
  | _, _ =>
      match env.QUEUE_CONNECTION_STYLE with
      | .options => (parseRedisOptions newURL env.REDIS_URL).map .options
      | .url => .ok (.url env.REDIS_URL)

structure BackoffOptions where
  type : String
  delay : ℕ
  deriving DecidableEq

structure DefaultJobOptions where
  attempts : ℕ
  backoff : BackoffOptions
  deriving DecidableEq

structure BymaxQueueModuleOptions (Redis Telemetry : Type) where
  connection : QueueConnectionConfig Redis
  keyPrefix : String
  defaultJobOptions : DefaultJobOptions
  flowsEnabled : Bool
  metricsEnabled : Bool
  cacheTtlMs : ℕ
  drainTimeoutMs : ℚ
  drainOnShutdown : Bool
  telemetry : Option Telemetry

/-- The telemetry is built only when the flag is set, after the connection. -/
def buildQueueOptions {Redis Telemetry : Type} (newURL : UrlParser) (env : AppEnv)
    (sharedClient : Option Redis) (buildTelemetry : Except ConfigError Telemetry) :
    Except ConfigError (BymaxQueueModuleOptions Redis Telemetry) := do
  let connection ← selectConnection newURL env sharedClient
  let telemetry ← (if env.QUEUE_OTEL then buildTelemetry.map some else pure none)
  pure
    { connection
      keyPrefix := env.QUEUE_PREFIX
      defaultJobOptions := ⟨DEFAULT_JOB_ATTEMPTS, ⟨"exponential", BACKOFF_BASE_DELAY_MS⟩⟩
      flowsEnabled := true
      metricsEnabled := true
      cacheTtlMs := METRICS_CACHE_TTL_MS
      drainTimeoutMs := env.QUEUE_DRAIN_TIMEOUT_MS
      drainOnShutdown := env.QUEUE_DRAIN_ON_SHUTDOWN
      telemetry }

theorem exists_of_bind_ok {ε α β : Type} {x : Except ε α} {f : α → Except ε β} {b : β}
    (h : (x >>= f) = .ok b) : ∃ a, x = .ok a ∧ f a = .ok b := by
  cases x with
  | error error => contradiction
  | ok a => exact ⟨a, rfl, h⟩

theorem buildQueueOptions_ok {Redis Telemetry : Type} {newURL : UrlParser} {env : AppEnv}
    {sharedClient : Option Redis} {buildTelemetry : Except ConfigError Telemetry}
    {options : BymaxQueueModuleOptions Redis Telemetry}
    (h : buildQueueOptions newURL env sharedClient buildTelemetry = .ok options) :
    selectConnection newURL env sharedClient = .ok options.connection ∧
      options.defaultJobOptions =
        ⟨DEFAULT_JOB_ATTEMPTS, ⟨"exponential", BACKOFF_BASE_DELAY_MS⟩⟩ := by
  obtain ⟨connection, hconnection, hrest⟩ := exists_of_bind_ok h
  obtain ⟨telemetry, -, hoptions⟩ := exists_of_bind_ok hrest
  obtain rfl := Except.ok.inj hoptions
  exact ⟨hconnection, rfl⟩

end NestQueueExample.Config
