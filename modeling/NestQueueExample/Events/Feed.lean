import NestQueueExample.Foundations.JsValue
import NestQueueExample.Foundations.Observable
import NestQueueExample.Foundations.SlidingWindow

/-!
# The event feed and its read surface

The entries that the queue listeners bridge, the bounded buffer that holds the
most recent ones for replay, and the controller that replays them and then
follows the live channel. The feed never looks inside an entry, so it is
defined over any type of entries.
-/

namespace NestQueueExample.Events

open SlidingWindow

/-- A clock reading, `new Date().toISOString()`, kept as its epoch milliseconds. -/
abbrev Timestamp := ℕ

inductive FeedSource where
  | worker
  | global
  deriving DecidableEq

structure FeedEntry where
  source : FeedSource
  queue : String
  event : String
  jobId : Option String
  recordedAt : Timestamp
  data : Option JsValue := none
  returnvalue : Option JsValue := none
  progress : Option JsValue := none
  attemptsMade : Option ℕ := none
  failedReason : Option String := none
  resolvedData : Option JsValue := none

def FEED_BUFFER_CAPACITY : ℕ := 200

def DEFAULT_REPLAY_COUNT : ℕ := 20

def SSE_REPLAY_COUNT : ℕ := 20

structure EventFeed (α : Type*) where
  buffer : List α := []

namespace EventFeed

variable {α : Type*}

/-- Append an entry, dropping the oldest when the buffer is over its capacity.
The broadcast on the channel is the other half of `push`; whoever owns the
subscriptions makes it. -/
def push (feed : EventFeed α) (entry : α) : EventFeed α :=
  let buffer := feed.buffer ++ [entry]
  if buffer.length > FEED_BUFFER_CAPACITY then ⟨buffer.tail⟩ else ⟨buffer⟩

def recent (feed : EventFeed α) (limit : ℕ := DEFAULT_REPLAY_COUNT) : List α :=
  slice feed.buffer (-(limit : ℤ)) none

def snapshot (feed : EventFeed α) : List α := feed.buffer

def live (_feed : EventFeed α) : Observable α α := .channel

theorem push_buffer (feed : EventFeed α) (entry : α) :
    (feed.push entry).buffer = pushBounded FEED_BUFFER_CAPACITY feed.buffer entry := by
  simp only [push, pushBounded]
  split <;> rfl

/-- The buffer is the window of the last 200 entries pushed. -/
theorem push_buffer_eq_rtake {feed : EventFeed α} {pushed : List α}
    (h : feed.buffer = pushed.rtake FEED_BUFFER_CAPACITY) (entry : α) :
    (feed.push entry).buffer = (pushed ++ [entry]).rtake FEED_BUFFER_CAPACITY := by
  rw [push_buffer, h, pushBounded_rtake]

theorem foldl_push_buffer_eq_rtake {feed : EventFeed α} {pushed : List α}
    (h : feed.buffer = pushed.rtake FEED_BUFFER_CAPACITY) (entries : List α) :
    (entries.foldl push feed).buffer = (pushed ++ entries).rtake FEED_BUFFER_CAPACITY := by
  have hbuffer : (entries.foldl push feed).buffer =
      entries.foldl (pushBounded FEED_BUFFER_CAPACITY) feed.buffer :=
    (List.foldl_hom buffer fun feed entry ↦ (push_buffer feed entry).symm).symm
  rw [hbuffer, h, foldl_pushBounded_rtake]

theorem recent_eq_rtake {feed : EventFeed α} {pushed : List α}
    (h : feed.buffer = pushed.rtake FEED_BUFFER_CAPACITY) {limit : ℕ}
    (hpos : 0 < limit) (hle : limit ≤ FEED_BUFFER_CAPACITY) :
    feed.recent limit = pushed.rtake limit := by
  rw [recent, slice_neg hpos, h, rtake_rtake, Nat.min_eq_left hle]

theorem recent_zero (feed : EventFeed α) : feed.recent 0 = feed.buffer := by
  simpa [recent] using slice_from 0 feed.buffer

/-- After `entries` were pushed, a snapshot is the last 200 of them, and the
most recent `limit` are the last `limit` of those. -/
def ReadsExactWindows (entries : List α) (limit : ℕ) : Prop :=
  let feed : EventFeed α := entries.foldl push {}
  feed.snapshot = entries.rtake (min entries.length FEED_BUFFER_CAPACITY) ∧
    feed.recent limit =
      entries.rtake (min limit (min entries.length FEED_BUFFER_CAPACITY)) ∧
    (feed.recent limit).length ≤ limit

/-- The reads are exact windows but for a limit of zero, where the index
`-limit` is the start of the buffer: the whole buffer is returned. -/
theorem readsExactWindows_iff (entries : List α) (limit : ℕ) :
    ReadsExactWindows entries limit ↔ (limit = 0 → entries = []) := by
  have hempty : ({} : EventFeed α).buffer = ([] : List α).rtake FEED_BUFFER_CAPACITY := by
    simp [List.rtake]
  have hbuffer : (entries.foldl push ({} : EventFeed α)).buffer =
      entries.rtake FEED_BUFFER_CAPACITY := by
    simpa using foldl_push_buffer_eq_rtake hempty entries
  have hsnapshot : (entries.foldl push ({} : EventFeed α)).snapshot =
      entries.rtake (min entries.length FEED_BUFFER_CAPACITY) := by
    rw [snapshot, hbuffer, min_comm, rtake_min_length]
  rcases Nat.eq_zero_or_pos limit with rfl | hpos
  · have hcapacity : 0 < FEED_BUFFER_CAPACITY := Nat.succ_pos 199
    simp only [ReadsExactWindows, recent_zero, hbuffer, hsnapshot, true_and, length_rtake]
    constructor
    · rintro ⟨-, hlen⟩ -
      exact List.eq_nil_of_length_eq_zero (by omega)
    · intro hnil
      simp [hnil trivial, List.rtake]
  · have hrecent : (entries.foldl push ({} : EventFeed α)).recent limit =
        entries.rtake (min limit (min entries.length FEED_BUFFER_CAPACITY)) := by
      rw [recent, slice_neg hpos, hbuffer, rtake_rtake, min_comm entries.length, ← min_assoc,
        rtake_min_length]
    refine iff_of_true ⟨hsnapshot, hrecent, ?_⟩ fun hzero ↦ absurd hzero (by omega)
    rw [hrecent, length_rtake]
    omega

theorem recent_zero_after_push :
    ¬ ReadsExactWindows [(⟨.worker, "emails", "completed", some "1", 0, none, none, none, none,
      none, none⟩ : FeedEntry)] 0 := by
  rintro ⟨-, -, hlen⟩
  rw [recent_zero] at hlen
  simp [push, FEED_BUFFER_CAPACITY] at hlen

end EventFeed

structure MessageEvent (α : Type*) where
  data : α

def toMessageEvent {α : Type*} (entry : α) : MessageEvent α := ⟨entry⟩

/-! ## The controller -/

namespace EventsController

variable {α : Type*}

/-- `GET /events/stream`: the replay is read when the handler runs, and the
live channel is joined behind it. -/
def stream (feed : EventFeed α) : Observable α (MessageEvent α) :=
  let replay := Observable.ofList (feed.recent SSE_REPLAY_COUNT)
  (Observable.concat replay feed.live).map toMessageEvent

def recent (feed : EventFeed α) : List α := feed.snapshot

@[simp] theorem stream_emits (feed : EventFeed α) :
    (stream feed).emits = (feed.recent SSE_REPLAY_COUNT).map toMessageEvent := by
  simp [stream, Observable.concat, Observable.ofList, Observable.map, EventFeed.live,
    Observable.channel]

@[simp] theorem stream_follows (feed : EventFeed α) :
    (stream feed).follows = some toMessageEvent := rfl

end EventsController

end NestQueueExample.Events
