import Mathlib.Data.Fin.VecNotation
import NestQueueExample.Schedulers.Controller

/-!
# Schedulers registered at boot

Every boot upserts three schedulers at once, and the calls are carried out in
any order. The store keeps one schedule for each queue and id. Whatever it held,
a boot leaves the three declared schedules in it and everything else as it was.
-/

namespace NestQueueExample.Schedulers

open Queues

/-! ## The boot service -/

def NIGHTLY_CLEANUP_ID : String := "nightly-cleanup"
def DEMO_HEARTBEAT_ID : String := "demo-heartbeat"
def METRICS_SNAPSHOT_ID : String := "metrics-snapshot"
def CLEANUP_JOB : String := "cleanup"
def HEARTBEAT_JOB : String := "heartbeat"
def METRICS_SNAPSHOT_JOB : String := "metrics-snapshot"

def NIGHTLY_CRON : String := "0 3 * * *"
def NIGHTLY_TZ : String := "America/Sao_Paulo"
def HEARTBEAT_CRON : String := "*/30 * * * * *"
def METRICS_EVERY_MS : ℚ := 300000
def METRICS_OFFSET_MS : ℚ := 15000
def METRICS_LIMIT : ℚ := 100

namespace BootSchedulersService

variable {L : Library}

def registerNightlyCleanup : Call L :=
  .upsertJobScheduler MAINTENANCE_QUEUE NIGHTLY_CLEANUP_ID
    { pattern := some NIGHTLY_CRON
      tz := some NIGHTLY_TZ
      every := none
      offset := none
      limit := none
      startDate := none
      endDate := none }
    (some ⟨some CLEANUP_JOB, some [("mode", .string "soft")]⟩)

def registerHeartbeat : Call L :=
  .upsertJobScheduler MONITORING_QUEUE DEMO_HEARTBEAT_ID
    { pattern := some HEARTBEAT_CRON
      tz := none
      every := none
      offset := none
      limit := none
      startDate := none
      endDate := none }
    (some ⟨some HEARTBEAT_JOB, some [("service", .string "api")]⟩)

def registerMetricsSnapshot : Call L :=
  .upsertJobScheduler MONITORING_QUEUE METRICS_SNAPSHOT_ID
    { pattern := none
      tz := none
      every := some METRICS_EVERY_MS
      offset := some METRICS_OFFSET_MS
      limit := some METRICS_LIMIT
      startDate := none
      endDate := none }
    (some ⟨some METRICS_SNAPSHOT_JOB, some [("scope", .string "all")]⟩)

def onApplicationBootstrap : Handler L Unit := do
  let _ ← Program.all ![registerNightlyCleanup, registerHeartbeat, registerMetricsSnapshot]
  pure ()

end BootSchedulersService

/-! ## The store -/

/-- A scheduler is identified by its queue and its id. -/
structure SchedulerKey where
  queue : String
  id : String
  deriving DecidableEq

structure Schedule where
  repeat_ : JobSchedulerRepeatOptions
  template : Option JobTemplate

abbrev SchedulerStore := SchedulerKey → Option Schedule

/-- What a call writes: a schedule, or its removal. -/
def written {L : Library} : Call L → Option (SchedulerKey × Option Schedule)
  | .upsertJobScheduler queue id repeat_ template => some (⟨queue, id⟩, some ⟨repeat_, template⟩)
  | .removeJobScheduler queue id => some (⟨queue, id⟩, none)
  | _ => none

/-- How the library carries a call out on the store. -/
abbrev CarryOut (L : Library) : Type := SchedulerStore → Call L → SchedulerStore

/-- The library writes a valid schedule under its key, rejects another one and
writes nothing then, and removes what is under a key. -/
structure CarriesOut {L : Library} (valid : JobSchedulerRepeatOptions → Bool)
    (carryOut : CarryOut L) : Prop where
  upserted {store : SchedulerStore} {call : Call L} {key : SchedulerKey} {schedule : Schedule} :
    written call = some (key, some schedule) → valid schedule.repeat_ = true →
      carryOut store call = Function.update store key (some schedule)
  rejected {store : SchedulerStore} {call : Call L} {key : SchedulerKey} {schedule : Schedule} :
    written call = some (key, some schedule) → valid schedule.repeat_ = false →
      carryOut store call = store
  removed {store : SchedulerStore} {call : Call L} {key : SchedulerKey} :
    written call = some (key, none) → carryOut store call = Function.update store key none
  kept {store : SchedulerStore} {call : Call L} : written call = none → carryOut store call = store

def bootCalls (L : Library) : List (Call L) :=
  [BootSchedulersService.registerNightlyCleanup, BootSchedulersService.registerHeartbeat,
    BootSchedulersService.registerMetricsSnapshot]

theorem pending_onApplicationBootstrap (L : Library) :
    (BootSchedulersService.onApplicationBootstrap : Handler L Unit).pending = bootCalls L := by
  simp [BootSchedulersService.onApplicationBootstrap, Program.all, bind, Program.bind,
    Program.pending, bootCalls]

/-- The schedules that a boot declares. -/
def declared : List (SchedulerKey × Schedule) :=
  (bootCalls ⟨Unit, Unit, Unit, Empty, []⟩).filterMap fun call ↦
    (written call).bind fun write ↦ write.2.map fun schedule ↦ (write.1, schedule)

def bootKeys : List SchedulerKey := declared.map Prod.fst

def declaredFor (key : SchedulerKey) : Option Schedule :=
  (declared.find? fun entry ↦ entry.1 = key).map Prod.snd

/-! ## What a boot leaves -/

section CarryOut

variable {L : Library} {valid : JobSchedulerRepeatOptions → Bool} {carryOut : CarryOut L}
  {store : SchedulerStore}

/-- A call leaves the store as it is or writes what it says, whatever is in the
store. -/
theorem CarriesOut.cases (hcarry : CarriesOut valid carryOut) {call : Call L} {key : SchedulerKey}
    {write : Option Schedule} (hcall : written call = some (key, write)) :
    (∀ store, carryOut store call = store) ∨
      ∀ store, carryOut store call = Function.update store key write := by
  cases write with
  | none => exact .inr fun store ↦ hcarry.removed hcall
  | some schedule =>
      cases hvalid : valid schedule.repeat_ with
      | false => exact .inl fun store ↦ hcarry.rejected hcall hvalid
      | true => exact .inr fun store ↦ hcarry.upserted hcall hvalid

theorem carryOut_comm (hcarry : CarriesOut valid carryOut) {call other : Call L}
    {key key' : SchedulerKey} {write write' : Option Schedule}
    (hcall : written call = some (key, write)) (hother : written other = some (key', write'))
    (hne : key ≠ key') :
    carryOut (carryOut store call) other = carryOut (carryOut store other) call := by
  rcases hcarry.cases hcall with hkeeps | hwrites
  · rw [hkeeps, hkeeps]
  · rcases hcarry.cases hother with hkeeps' | hwrites'
    · rw [hkeeps', hkeeps']
    · rw [hwrites, hwrites, hwrites', hwrites']
      exact Function.update_comm hne ..

theorem carryOut_eq_some (hcarry : CarriesOut valid carryOut) {call : Call L} {key : SchedulerKey}
    {schedule : Schedule} (h : carryOut store call key = some schedule) :
    store key = some schedule ∨ written call = some (key, some schedule) := by
  rcases hwritten : written call with _ | ⟨key', write⟩
  · rw [hcarry.kept hwritten] at h
    exact .inl h
  · rcases hcarry.cases hwritten with hkeeps | hwrites
    · rw [hkeeps] at h
      exact .inl h
    · rw [hwrites, Function.update_apply] at h
      split at h
      · next hkey => exact .inr (by rw [hkey, h])
      · exact .inl h

theorem foldl_carryOut (hcarry : CarriesOut valid carryOut) {calls : List (Call L)}
    {entries : List (SchedulerKey × Schedule)}
    (hwrites : calls.map written = entries.map fun entry ↦ some (entry.1, some entry.2))
    (hvalid : ∀ entry ∈ entries, valid entry.2.repeat_ = true)
    (hnodup : (entries.map Prod.fst).Nodup) (key : SchedulerKey) :
    calls.foldl carryOut store key =
      ((entries.find? fun entry ↦ entry.1 = key).map Prod.snd).or (store key) := by
  induction entries generalizing calls store with
  | nil =>
      obtain rfl : calls = [] := by simpa using hwrites
      rfl
  | cons entry entries ih =>
      obtain ⟨call, calls, rfl, hwrite, hrest⟩ := List.map_eq_cons_iff.mp hwrites
      rw [List.forall_mem_cons] at hvalid
      rw [List.map_cons, List.nodup_cons] at hnodup
      have hfirst : carryOut store call = Function.update store entry.1 (some entry.2) :=
        hcarry.upserted hwrite hvalid.1
      rw [List.foldl_cons, ih hrest hvalid.2 hnodup.2, hfirst, List.find?_cons]
      by_cases hkey : entry.1 = key
      · have hnone : entries.find? (fun entry ↦ entry.1 = key) = none := by
          rw [List.find?_eq_none]
          intro other hother
          rw [decide_eq_true_eq]
          rintro rfl
          exact hnodup.1 (hkey ▸ List.mem_map_of_mem hother)
        simp [hnone, hkey]
      · simp [hkey, Function.update_of_ne (Ne.symm hkey)]

/-- In whatever order the three calls of a boot are carried out, they leave the
declared schedules and keep the others. -/
theorem foldl_bootCalls (hcarry : CarriesOut valid carryOut)
    (hvalid : ∀ entry ∈ declared, valid entry.2.repeat_ = true)
    {calls : List (Call L)} (hcalls : calls.Perm (bootCalls L)) (key : SchedulerKey) :
    calls.foldl carryOut store key = (declaredFor key).or (store key) := by
  have hcomm : ∀ call ∈ bootCalls L, ∀ other ∈ bootCalls L, ∀ s,
      carryOut (carryOut s call) other = carryOut (carryOut s other) call := by
    simp only [bootCalls, List.mem_cons, List.not_mem_nil, or_false]
    rintro call (rfl | rfl | rfl) other (rfl | rfl | rfl) s
    all_goals first | rfl | exact carryOut_comm hcarry rfl rfl (by decide)
  rw [hcalls.foldl_eq' fun call hcall other hother s ↦
    hcomm call (hcalls.mem_iff.mp hcall) other (hcalls.mem_iff.mp hother) s]
  exact foldl_carryOut hcarry rfl hvalid (by decide) key

end CarryOut

end NestQueueExample.Schedulers
