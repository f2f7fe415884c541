import NestQueueExample.Foundations.Schema
import NestQueueExample.Foundations.UrlParser

/-!
# The environment

The variables of the process are checked against one schema in which every
variable has a default, and the rest of the application sees the result only.
-/

namespace NestQueueExample.Config

inductive ConnectionStyle where
  | url
  | options
  deriving DecidableEq

inductive ConnectionMode where
  | own
  | shared
  deriving DecidableEq

structure AppEnv where
  PORT : ℚ
  REDIS_URL : String
  QUEUE_CONNECTION_STYLE : ConnectionStyle
  QUEUE_CONNECTION_MODE : ConnectionMode
  QUEUE_PREFIX : String
  QUEUE_DRAIN_TIMEOUT_MS : ℚ
  QUEUE_DRAIN_ON_SHUTDOWN : Bool
  QUEUE_OTEL : Bool
  INVOICE_WORKER_THREADS : Bool
  WEBHOOK_FAILURES : ℚ
  REMINDER_DELAY_MS : ℚ
  WEB_ORIGIN : String

/-- What the checks use of the platform and of the validation library. -/
structure Platform where
  zod : Zod
  newURL : UrlParser
  prettifyError : List ZodIssue → String

/-- Only `true`, `"true"` and `"1"` enable a flag. -/
def booleanFlag : Schema Bool :=
  .transform (.default (.union .boolean (.string [])) (.inl false)) fun value ↦
    match value with
    | .inl b => b
    | .inr s => s == "true" || s == "1"

def styleSchema : Schema ConnectionStyle :=
  .transform (.enum ["url", "options"]) fun value ↦
    if value.1 = "url" then .url else .options

def modeSchema : Schema ConnectionMode :=
  .transform (.enum ["own", "shared"]) fun value ↦
    if value.1 = "own" then .own else .shared

def webOriginSchema (newURL : UrlParser) : Schema String :=
  .transform (.default (.string [.regex fun value ↦ (newURL value).isSome])
    "http://localhost:3000") fun value ↦ ((newURL value).map (Url.origin newURL)).getD ""

def webhookFailuresSchema : Schema ℚ := .default (.coerceNumber [.int, .min 0]) 2

def envSchema (newURL : UrlParser) : Schema AppEnv :=
  .object
    (.cons "PORT" (.default (.coerceNumber [.int, .positive]) 3080) <|
      .cons "REDIS_URL" (.default (.string [.min 1]) "redis://localhost:6379/0") <|
      .cons "QUEUE_CONNECTION_STYLE" (.default styleSchema .url) <|
      .cons "QUEUE_CONNECTION_MODE" (.default modeSchema .own) <|
      .cons "QUEUE_PREFIX" (.default (.string [.min 1]) "nqex") <|
      .cons "QUEUE_DRAIN_TIMEOUT_MS" (.default (.coerceNumber [.int, .positive]) 30000) <|
      .cons "QUEUE_DRAIN_ON_SHUTDOWN" booleanFlag <|
      .cons "QUEUE_OTEL" booleanFlag <|
      .cons "INVOICE_WORKER_THREADS" booleanFlag <|
      .cons "WEBHOOK_FAILURES" webhookFailuresSchema <|
      .cons "REMINDER_DELAY_MS" (.default (.coerceNumber [.int, .positive]) 60000) <|
      .cons "WEB_ORIGIN" (webOriginSchema newURL) .nil)
    fun (PORT, REDIS_URL, QUEUE_CONNECTION_STYLE, QUEUE_CONNECTION_MODE, QUEUE_PREFIX,
        QUEUE_DRAIN_TIMEOUT_MS, QUEUE_DRAIN_ON_SHUTDOWN, QUEUE_OTEL, INVOICE_WORKER_THREADS,
        WEBHOOK_FAILURES, REMINDER_DELAY_MS, WEB_ORIGIN, _) ↦
      { PORT, REDIS_URL, QUEUE_CONNECTION_STYLE, QUEUE_CONNECTION_MODE, QUEUE_PREFIX,
        QUEUE_DRAIN_TIMEOUT_MS, QUEUE_DRAIN_ON_SHUTDOWN, QUEUE_OTEL, INVOICE_WORKER_THREADS,
        WEBHOOK_FAILURES, REMINDER_DELAY_MS, WEB_ORIGIN }

def parseEnv (platform : Platform) (source : JsValue) : Except String AppEnv :=
  match platform.zod.safeParse (envSchema platform.newURL) source with
  | .ok data => .ok data
  | .error issues => .error ("Invalid environment:\n" ++ platform.prettifyError issues)

/-- The environment of an empty process environment. -/
def defaultEnv : AppEnv where
  PORT := 3080
  REDIS_URL := "redis://localhost:6379/0"
  QUEUE_CONNECTION_STYLE := .url
  QUEUE_CONNECTION_MODE := .own
  QUEUE_PREFIX := "nqex"
  QUEUE_DRAIN_TIMEOUT_MS := 30000
  QUEUE_DRAIN_ON_SHUTDOWN := false
  QUEUE_OTEL := false
  INVOICE_WORKER_THREADS := false
  WEBHOOK_FAILURES := 2
  REMINDER_DELAY_MS := 60000
  WEB_ORIGIN := "http://localhost:3000"

def defaultPlatform : Platform where
  zod := .ofParse JsValue.toFinite
  newURL := UrlParser.newURL
  prettifyError issues := "\n".intercalate (issues.map ZodIssue.message)

theorem defaultOrigin : ((UrlParser.newURL "http://localhost:3000").map
    (Url.origin UrlParser.newURL)).getD "" = "http://localhost:3000" := by
  decide +kernel

theorem parseEnv_ok_iff {platform : Platform} {source : JsValue} {env : AppEnv} :
    parseEnv platform source = .ok env ↔
      platform.zod.safeParse (envSchema platform.newURL) source = .ok env := by
  unfold parseEnv
  split <;> simp_all

theorem webhookFailures_parsed {platform : Platform} (hzod : platform.zod.Documented)
    {source : JsValue} {env : AppEnv} (h : parseEnv platform source = .ok env) :
    platform.zod.safeParse webhookFailuresSchema (source.read "WEBHOOK_FAILURES") =
      .ok env.WEBHOOK_FAILURES := by
  obtain ⟨⟨_, _, _, _, _, _, _, _, _, failures, _, _, _⟩, hfields, rfl⟩ :=
    hzod.object_ok (parseEnv_ok_iff.mp h)
  obtain ⟨-, -, -, -, -, -, -, -, -, hfailures, -⟩ := hfields
  exact hfailures

/-- The number of injected failures is a natural number. -/
theorem webhookFailures_natural {platform : Platform} (hzod : platform.zod.Documented)
    (hchecks : platform.zod.Checks) {source : JsValue} {env : AppEnv}
    (h : parseEnv platform source = .ok env) : ∃ n : ℕ, env.WEBHOOK_FAILURES = n := by
  rcases hzod.default_ok (webhookFailures_parsed hzod h) with ⟨-, hdefault⟩ | hgiven
  · exact ⟨2, by rw [hdefault]; rfl⟩
  · have hholds := hchecks.coerceNumber_holds hgiven
    have hint : env.WEBHOOK_FAILURES.den = 1 := by
      have hcheck := hholds .int (by simp)
      simp only [NumberCheck.holds, decide_eq_true_eq] at hcheck
      exact hcheck.1
    have hmin : 0 ≤ env.WEBHOOK_FAILURES := by
      simpa [NumberCheck.holds] using hholds (.min 0) (by simp)
    refine ⟨env.WEBHOOK_FAILURES.num.toNat, ?_⟩
    have hnum : (env.WEBHOOK_FAILURES.num : ℚ) = env.WEBHOOK_FAILURES :=
      Rat.coe_int_num_of_den_eq_one hint
    have hnat : ((env.WEBHOOK_FAILURES.num.toNat : ℕ) : ℤ) = env.WEBHOOK_FAILURES.num :=
      Int.toNat_of_nonneg (Rat.num_nonneg.mpr hmin)
    calc env.WEBHOOK_FAILURES = (env.WEBHOOK_FAILURES.num : ℚ) := hnum.symm
      _ = ((env.WEBHOOK_FAILURES.num.toNat : ℤ) : ℚ) := by rw [hnat]
      _ = (env.WEBHOOK_FAILURES.num.toNat : ℚ) := Int.cast_natCast _

end NestQueueExample.Config
