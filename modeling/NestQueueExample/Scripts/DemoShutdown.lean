import Mathlib.Data.Bool.AllAny
import NestQueueExample.Foundations.JsNumber
import NestQueueExample.Foundations.Runs
import NestQueueExample.Foundations.TextSearch

/-!
# The shutdown demonstration

The demonstration passes when the API logged a drain without forced workers and
exited as expected. Its probe reads the output of the API a chunk at a time and
keeps no rest of a line between chunks. It finds the drain that the whole output
logs, and gives the verdict of the unsplit output, exactly when some logged drain
lies within one chunk.
-/

namespace NestQueueExample.Scripts

open Runs TextSearch Utf8Decoder

/-! ## The probe -/

inductive OutputStream where
  | stdout
  | stderr
  deriving DecidableEq

/-- A `data` event of a stream of the child. -/
structure DataEvent where
  stream : OutputStream
  chunk : List UInt8

def SHUTDOWN_WORDS : List (List Char) :=
  ["shutdown".toList, "drain".toList, "stalled".toList, "terminating".toList]

def SHUTDOWN_LINE (line : List Char) : Bool := SHUTDOWN_WORDS.any fun word ↦ hasWord word line

def DRAIN_COMPLETE : List Char := "shutdown complete".toList

def NONE_FORCED : List Char := "forced 0 worker".toList

def GRACEFUL_DRAIN_LINE : List Char → Bool := hasPhrase DRAIN_COMPLETE NONE_FORCED

structure ShutdownLogs where
  hasDrained : Bool := false
  logged : List String := []
  deriving DecidableEq

def relayLine (logs : ShutdownLogs) (line : List Char) : ShutdownLogs where
  hasDrained := if GRACEFUL_DRAIN_LINE line then true else logs.hasDrained
  logged :=
    if SHUTDOWN_LINE line then logs.logged ++ ["[api] " ++ String.ofList (JsNumber.trim line)]
    else logs.logged

def relay (logs : ShutdownLogs) (event : DataEvent) : ShutdownLogs :=
  (lines (decode event.chunk)).foldl relayLine logs

def forwardShutdownLogs (events : List DataEvent) : ShutdownLogs := exec relay {} events

def drainedGracefully (events : List DataEvent) : Bool := (forwardShutdownLogs events).hasDrained

/-! ## The verdict -/

structure ExitOutcome where
  code : Option ℕ
  signal : Option String
  deriving DecidableEq

def orNull (text : Option String) : String := text.getD "null"

/-- The exit code of the demonstration, and the line that it prints. -/
def reportOutcome (outcome : ExitOutcome) (elapsed : ℤ) (drainedGracefully : Bool) : ℕ × String :=
  let isHandledSignalExit := outcome.code == some 0 || outcome.signal == some "SIGTERM"
  let suffix := "code " ++ orNull (outcome.code.map toString) ++ " / signal " ++
    orNull outcome.signal
  if drainedGracefully && isHandledSignalExit then
    (0, "PASS: drained in-flight work with zero forced workers and exited in " ++
      toString elapsed ++ "ms (" ++ suffix ++ ")")
  else
    (1, "FAIL: graceful drain not confirmed (" ++ suffix ++ ", drained=" ++
      toString drainedGracefully ++ ") after " ++ toString elapsed ++ "ms")

/-! ## The output as a whole -/

def written (events : List DataEvent) (stream : OutputStream) : List UInt8 :=
  (events.filter (·.stream = stream)).flatMap DataEvent.chunk

/-- The same output, each stream in one chunk. -/
def unsplit (events : List DataEvent) : List DataEvent :=
  [⟨.stdout, written events .stdout⟩, ⟨.stderr, written events .stderr⟩]

def LogsDrain (events : List DataEvent) : Prop :=
  ∃ stream, ∃ line ∈ lines (decode (written events stream)), GRACEFUL_DRAIN_LINE line = true

structure IgnoresChunks (events : List DataEvent) : Prop where
  detected : drainedGracefully events = true ↔ LogsDrain events
  verdict : ∀ outcome elapsed, reportOutcome outcome elapsed (drainedGracefully events) =
    reportOutcome outcome elapsed (drainedGracefully (unsplit events))

/-- The bytes are read as a logged drain, from the first word to the last. -/
def IsDrainBytes (segment : List UInt8) : Prop :=
  IsPhrase DRAIN_COMPLETE NONE_FORCED (decode segment)

/-- If a stream has the bytes of a drain, a single chunk has such bytes. -/
def HasUncutDrain (events : List DataEvent) : Prop :=
  (∃ stream segment, segment <:+: written events stream ∧ IsDrainBytes segment) →
    ∃ event ∈ events, ∃ segment, segment <:+: event.chunk ∧ IsDrainBytes segment

theorem hasDrained_relayLine (logs : ShutdownLogs) (line : List Char) :
    (relayLine logs line).hasDrained = (logs.hasDrained || GRACEFUL_DRAIN_LINE line) := by
  rw [relayLine, Bool.or_comm]
  cases GRACEFUL_DRAIN_LINE line <;> rfl

theorem hasDrained_relay (logs : ShutdownLogs) (event : DataEvent) :
    (relay logs event).hasDrained =
      (logs.hasDrained || (lines (decode event.chunk)).any GRACEFUL_DRAIN_LINE) := by
  rw [relay]
  induction lines (decode event.chunk) generalizing logs with
  | nil => simp
  | cons line rest ih =>
      rw [List.foldl_cons, ih, hasDrained_relayLine, List.any_cons, Bool.or_assoc]

theorem hasDrained_exec_relay (logs : ShutdownLogs) (events : List DataEvent) :
    (exec relay logs events).hasDrained =
      (logs.hasDrained ||
        events.any fun event ↦ (lines (decode event.chunk)).any GRACEFUL_DRAIN_LINE) := by
  induction events generalizing logs with
  | nil => simp
  | cons event events ih =>
      rw [exec_cons, ih, hasDrained_relay, List.any_cons, Bool.or_assoc]

/-- A text logs a drain in some line exactly when it has the bytes of one. -/
theorem any_lines_iff (bytes : List UInt8) :
    (lines (decode bytes)).any GRACEFUL_DRAIN_LINE = true ↔
      ∃ segment, segment <:+: bytes ∧ IsDrainBytes segment := by
  have hcomplete : IsAscii DRAIN_COMPLETE := List.all_iff_forall_prop.mp (by decide)
  have hforced : IsAscii NONE_FORCED := List.all_iff_forall_prop.mp (by decide)
  rw [GRACEFUL_DRAIN_LINE, any_lines_hasPhrase_iff (by decide) (by decide),
    exists_segment_iff hcomplete hforced (by decide) (by decide)]
  rfl

theorem drainedGracefully_iff (events : List DataEvent) :
    drainedGracefully events = true ↔
      ∃ event ∈ events, ∃ segment, segment <:+: event.chunk ∧ IsDrainBytes segment := by
  rw [drainedGracefully, forwardShutdownLogs, hasDrained_exec_relay, Bool.false_or,
    List.any_eq_true]
  simp only [any_lines_iff]

theorem logsDrain_iff (events : List DataEvent) :
    LogsDrain events ↔
      ∃ stream segment, segment <:+: written events stream ∧ IsDrainBytes segment := by
  simp only [LogsDrain, ← any_lines_iff, List.any_eq_true]

theorem infix_written {events : List DataEvent} {event : DataEvent} (h : event ∈ events) :
    event.chunk <:+: written events event.stream := by
  refine List.infix_of_mem_flatten (List.mem_map.mpr ⟨event, ?_, rfl⟩)
  simpa using h

/-- What the probe finds is always logged. -/
theorem logsDrain_of_drainedGracefully {events : List DataEvent}
    (h : drainedGracefully events = true) : LogsDrain events := by
  obtain ⟨event, hevent, segment, hsegment, hdrain⟩ := (drainedGracefully_iff events).mp h
  rw [logsDrain_iff]
  exact ⟨event.stream, segment, hsegment.trans (infix_written hevent), hdrain⟩

theorem drainedGracefully_unsplit (events : List DataEvent) :
    drainedGracefully (unsplit events) = true ↔ LogsDrain events := by
  rw [drainedGracefully_iff, logsDrain_iff]
  constructor
  · rintro ⟨event, hevent, segment, hsegment, hdrain⟩
    simp only [unsplit, List.mem_cons, List.not_mem_nil, or_false] at hevent
    rcases hevent with rfl | rfl
    · exact ⟨.stdout, segment, hsegment, hdrain⟩
    · exact ⟨.stderr, segment, hsegment, hdrain⟩
  · rintro ⟨stream, hstream⟩
    cases stream with
    | stdout => exact ⟨_, List.mem_cons_self, hstream⟩
    | stderr => exact ⟨_, List.mem_cons_of_mem _ (List.mem_singleton_self _), hstream⟩

/-- Detection and verdict are those of the whole output, however it is cut into
chunks, exactly when a drain that it logs is not cut. -/
theorem ignoresChunks_iff (events : List DataEvent) :
    IgnoresChunks events ↔ HasUncutDrain events := by
  rw [HasUncutDrain, ← logsDrain_iff, ← drainedGracefully_iff]
  constructor
  · intro h
    exact h.detected.mpr
  · intro h
    have hdetected : drainedGracefully events = true ↔ LogsDrain events :=
      ⟨logsDrain_of_drainedGracefully, h⟩
    have hsame : drainedGracefully events = drainedGracefully (unsplit events) :=
      Bool.eq_iff_iff.mpr (hdetected.trans (drainedGracefully_unsplit events).symm)
    exact ⟨hdetected, fun outcome elapsed ↦ by rw [hsame]⟩

/-- A logged drain that is read in two chunks. -/
def cutDrain : List DataEvent :=
  [⟨.stdout, "shutdown complete: drained 1 worker, ".toList.map asciiByte⟩,
    ⟨.stdout, "forced 0 workers\n".toList.map asciiByte⟩]

theorem cutDrain_fails :
    ¬ IgnoresChunks cutDrain ∧
      (reportOutcome ⟨none, some "SIGTERM"⟩ 900 (drainedGracefully cutDrain)).1 = 1 ∧
      (reportOutcome ⟨none, some "SIGTERM"⟩ 900 (drainedGracefully (unsplit cutDrain))).1 = 0 := by
  have hcut : drainedGracefully cutDrain = false := by decide +kernel
  have hwhole : drainedGracefully (unsplit cutDrain) = true := by decide +kernel
  refine ⟨fun h ↦ ?_, ?_, ?_⟩
  · have hlogged := (drainedGracefully_unsplit cutDrain).mp hwhole
    rw [h.detected.mpr hlogged] at hcut
    contradiction
  · rw [hcut]
    rfl
  · rw [hwhole]
    rfl

end NestQueueExample.Scripts
