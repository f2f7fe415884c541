import Mathlib.Data.List.Range
import Mathlib.Tactic.IntervalCases
import NestQueueExample.Events.Feed
import NestQueueExample.Foundations.Runs

/-!
# Subscribers of the event stream

One feed and any number of stream requests. A call of the handler returns an
observable; the framework subscribes to it at that point or later, and every
push in between goes to the buffer and to the open subscriptions only. The
state keeps the whole pushed sequence and the positions of the calls beside
what the server holds, so that what a subscriber received can be compared with
what was pushed.
-/

namespace NestQueueExample.Events

open SlidingWindow Runs

/-- An entry object with its position among the pushes. Two pushes are never
the same object, even when the fields of their entries agree. -/
structure Stamped (α : Type*) where
  seq : ℕ
  entry : α

/-- The observable that a call of `stream` returned, and the number of entries
pushed before that call. -/
structure Handle (α : Type*) where
  observable : Observable (Stamped α) (MessageEvent (Stamped α))
  calledAt : ℕ

/-- A subscription to such an observable: the positions of the handler's call,
of the subscription and of its end, and the messages received so far. -/
structure Subscription (α : Type*) where
  calledAt : ℕ
  subscribedAt : ℕ
  closedAt : Option ℕ
  follows : Option (Stamped α → MessageEvent (Stamped α))
  received : List (MessageEvent (Stamped α))

namespace Subscription

variable {α : Type*}

def next (sub : Subscription α) (entry : Stamped α) : Subscription α :=
  match sub.closedAt, sub.follows with
  | none, some f => { sub with received := sub.received ++ [f entry] }
  | _, _ => sub

def close (sub : Subscription α) (position : ℕ) : Subscription α :=
  { sub with closedAt := some (sub.closedAt.getD position) }

end Subscription

structure SseServer (α : Type*) where
  feed : EventFeed (Stamped α) := {}
  pushed : List (Stamped α) := []
  handles : List (Handle α) := []
  subscriptions : List (Subscription α) := []

inductive SseEvent (α : Type*) where
  | push (entry : α)
  | stream
  | subscribe (handle : ℕ)
  | unsubscribe (subscription : ℕ)

namespace SseServer

variable {α : Type*}

def push (s : SseServer α) (entry : α) : SseServer α :=
  let stamped := ⟨s.pushed.length, entry⟩
  { s with
    feed := s.feed.push stamped
    pushed := s.pushed ++ [stamped]
    subscriptions := s.subscriptions.map (·.next stamped) }

def stream (s : SseServer α) : SseServer α :=
  { s with handles := s.handles ++ [⟨EventsController.stream s.feed, s.pushed.length⟩] }

def subscribe (s : SseServer α) (handle : Handle α) : SseServer α :=
  { s with
    subscriptions := s.subscriptions ++
      [⟨handle.calledAt, s.pushed.length, none, handle.observable.follows,
        handle.observable.emits⟩] }

def unsubscribe (s : SseServer α) (subscription : ℕ) : SseServer α :=
  { s with subscriptions := s.subscriptions.modify subscription (·.close s.pushed.length) }

def step (s : SseServer α) : SseEvent α → SseServer α
  | .push entry => s.push entry
  | .stream => s.stream
  | .subscribe i => (s.handles[i]?).elim s s.subscribe
  | .unsubscribe i => s.unsubscribe i

def serve (es : List (SseEvent α)) : SseServer α := exec step {} es

end SseServer

/-! ## What a subscription has received -/

variable {α : Type*}

def replayAt (pushed : List (Stamped α)) (n : ℕ) : List (Stamped α) :=
  (pushed.take n).rtake SSE_REPLAY_COUNT

/-- The position up to which a subscription follows the pushes. -/
def Subscription.endsAt (sub : Subscription α) (pushed : List (Stamped α)) : ℕ :=
  sub.closedAt.getD pushed.length

structure Handle.Valid (pushed : List (Stamped α)) (handle : Handle α) : Prop where
  called_le : handle.calledAt ≤ pushed.length
  follows : handle.observable.follows = some toMessageEvent
  emits : handle.observable.emits = (replayAt pushed handle.calledAt).map toMessageEvent

/-- A subscription has received the replay of its handler's call, and behind
it the entries pushed from the subscription to its end. -/
structure Subscription.Valid (pushed : List (Stamped α)) (sub : Subscription α) : Prop where
  called_le : sub.calledAt ≤ sub.subscribedAt
  subscribed_le : sub.subscribedAt ≤ sub.endsAt pushed
  ends_le : sub.endsAt pushed ≤ pushed.length
  follows : sub.follows = some toMessageEvent
  received : sub.received =
    (replayAt pushed sub.calledAt ++
      (pushed.take (sub.endsAt pushed)).drop sub.subscribedAt).map toMessageEvent

structure SseServer.Valid (s : SseServer α) : Prop where
  buffer : s.feed.buffer = s.pushed.rtake FEED_BUFFER_CAPACITY
  stamps : s.pushed.map Stamped.seq = List.range s.pushed.length
  handles : ∀ handle ∈ s.handles, handle.Valid s.pushed
  subscriptions : ∀ sub ∈ s.subscriptions, sub.Valid s.pushed

theorem replayAt_append {pushed : List (Stamped α)} {n : ℕ} (h : n ≤ pushed.length)
    (x : Stamped α) : replayAt (pushed ++ [x]) n = replayAt pushed n := by
  rw [replayAt, replayAt, List.take_append_of_le_length h]

theorem Handle.Valid.push {pushed : List (Stamped α)} {handle : Handle α}
    (h : handle.Valid pushed) (x : Stamped α) : handle.Valid (pushed ++ [x]) where
  called_le := h.called_le.trans (by simp)
  follows := h.follows
  emits := by rw [replayAt_append h.called_le, h.emits]

theorem Subscription.Valid.push {pushed : List (Stamped α)} {sub : Subscription α}
    (h : sub.Valid pushed) (x : Stamped α) : (sub.next x).Valid (pushed ++ [x]) := by
  have hcalled : sub.calledAt ≤ pushed.length :=
    h.called_le.trans (h.subscribed_le.trans h.ends_le)
  cases hclosed : sub.closedAt with
  | none =>
      have hends : sub.endsAt pushed = pushed.length := by simp [endsAt, hclosed]
      have hnext : sub.next x = { sub with received := sub.received ++ [toMessageEvent x] } := by
        simp [next, hclosed, h.follows]
      have hends' : (sub.next x).endsAt (pushed ++ [x]) = pushed.length + 1 := by
        simp [hnext, endsAt, hclosed]
      have hsub : sub.subscribedAt ≤ pushed.length := hends ▸ h.subscribed_le
      refine ⟨by simpa [hnext] using h.called_le, ?_, by simp [hends'],
        by simpa [hnext] using h.follows, ?_⟩
      · rw [hends', hnext]
        exact hsub.trans (Nat.le_succ _)
      · rw [hends', hnext]
        simp [h.received, hends, replayAt_append hcalled, List.take_of_length_le,
          List.drop_append_of_le_length hsub]
  | some stop =>
      have hends : sub.endsAt pushed = stop := by simp [endsAt, hclosed]
      have hnext : sub.next x = sub := by simp [next, hclosed]
      have hends' : sub.endsAt (pushed ++ [x]) = stop := by simp [endsAt, hclosed]
      have hstop : stop ≤ pushed.length := hends ▸ h.ends_le
      rw [hnext]
      refine ⟨h.called_le, by rw [hends', ← hends]; exact h.subscribed_le, ?_, h.follows, ?_⟩
      · rw [hends']
        exact hstop.trans (by simp)
      · rw [hends', h.received, hends, replayAt_append hcalled,
          List.take_append_of_le_length hstop]

theorem Subscription.Valid.close {pushed : List (Stamped α)} {sub : Subscription α}
    (h : sub.Valid pushed) : (sub.close pushed.length).Valid pushed := by
  have hends : (sub.close pushed.length).endsAt pushed = sub.endsAt pushed := by
    simp [Subscription.close, endsAt]
  refine ⟨h.called_le, ?_, ?_, h.follows, ?_⟩
  · rw [hends]
    exact h.subscribed_le
  · rw [hends]
    exact h.ends_le
  · rw [hends]
    exact h.received

theorem SseServer.valid_initial : ({} : SseServer α).Valid :=
  ⟨by simp, by simp, by simp, by simp⟩

namespace SseServer.Valid

variable {s : SseServer α}

theorem push (h : s.Valid) (entry : α) : (s.push entry).Valid where
  buffer := EventFeed.push_buffer_eq_rtake h.buffer _
  stamps := by simp [SseServer.push, h.stamps, List.range_succ]
  handles := fun handle hmem ↦ (h.handles handle hmem).push _
  subscriptions := by
    intro sub hmem
    obtain ⟨old, hold, rfl⟩ := List.mem_map.mp hmem
    exact (h.subscriptions old hold).push _

theorem stream (h : s.Valid) : s.stream.Valid where
  buffer := h.buffer
  stamps := h.stamps
  handles := by
    intro handle hmem
    rcases List.mem_append.mp hmem with hold | hnew
    · exact h.handles handle hold
    · obtain rfl := List.mem_singleton.mp hnew
      refine ⟨le_refl _, EventsController.stream_follows _, ?_⟩
      have hreplay : s.feed.recent SSE_REPLAY_COUNT = s.pushed.rtake SSE_REPLAY_COUNT :=
        EventFeed.recent_eq_rtake h.buffer (by decide) (by decide)
      simp [replayAt, hreplay, SseServer.stream]
  subscriptions := h.subscriptions

theorem subscribe (h : s.Valid) {handle : Handle α} (hmem : handle ∈ s.handles) :
    (s.subscribe handle).Valid where
  buffer := h.buffer
  stamps := h.stamps
  handles := h.handles
  subscriptions := by
    intro sub hsub
    rcases List.mem_append.mp hsub with hold | hnew
    · exact h.subscriptions sub hold
    · obtain rfl := List.mem_singleton.mp hnew
      have hhandle := h.handles handle hmem
      refine ⟨hhandle.called_le, le_refl _, le_refl _, hhandle.follows, ?_⟩
      simp [Subscription.endsAt, SseServer.subscribe, hhandle.emits]

theorem unsubscribe (h : s.Valid) (i : ℕ) : (s.unsubscribe i).Valid where
  buffer := h.buffer
  stamps := h.stamps
  handles := h.handles
  subscriptions := by
    intro sub hmem
    obtain ⟨j, hj, rfl⟩ := List.getElem_of_mem hmem
    simp only [SseServer.unsubscribe, List.length_modify] at hj
    have hold := h.subscriptions _ (List.getElem_mem hj)
    simp only [SseServer.unsubscribe, List.getElem_modify]
    split
    · exact hold.close
    · exact hold

theorem step (h : s.Valid) (e : SseEvent α) : (s.step e).Valid := by
  cases e with
  | push entry => exact h.push entry
  | stream => exact h.stream
  | subscribe i =>
      cases hi : s.handles[i]? with
      | none => simpa [SseServer.step, hi] using h
      | some handle =>
          simpa [SseServer.step, hi] using h.subscribe (List.mem_of_getElem? hi)
  | unsubscribe i => exact h.unsubscribe i

end SseServer.Valid

theorem SseServer.serve_valid (es : List (SseEvent α)) : (serve es).Valid :=
  exec_invariant _ (fun _ e h ↦ h.step e) valid_initial es

/-! ## What a subscriber should receive -/

/-- The entries a subscriber received are the pushed entries from at most
20 before the subscription up to its end, in order and each once. -/
def Subscription.LosesNothing (pushed : List (Stamped α)) (sub : Subscription α) : Prop :=
  ∃ start, start ≤ sub.subscribedAt ∧ sub.subscribedAt ≤ start + SSE_REPLAY_COUNT ∧
    sub.received.map MessageEvent.data = (pushed.take (sub.endsAt pushed)).drop start

theorem replayAt_eq_drop (pushed : List (Stamped α)) {n : ℕ} (h : n ≤ pushed.length) :
    replayAt pushed n = (pushed.take n).drop (n - SSE_REPLAY_COUNT) := by
  simp [replayAt, List.rtake, h]

theorem drop_take_append {pushed : List (Stamped α)} {start middle stop : ℕ}
    (h₁ : start ≤ middle) (h₂ : middle ≤ stop) :
    (pushed.take middle).drop start ++ (pushed.take stop).drop middle =
      (pushed.take stop).drop start := by
  have hmiddle : pushed.take middle = (pushed.take stop).take middle := by
    rw [List.take_take, Nat.min_eq_left h₂]
  obtain ⟨k, rfl⟩ := Nat.exists_eq_add_of_le h₁
  rw [hmiddle, ← List.take_drop, ← List.drop_drop]
  exact List.take_append_drop k _

theorem seq_drop_take {pushed : List (Stamped α)}
    (hstamps : pushed.map Stamped.seq = List.range pushed.length)
    {start stop : ℕ} (hstop : stop ≤ pushed.length) :
    ((pushed.take stop).drop start).map Stamped.seq = List.range' start (stop - start) := by
  rw [List.map_drop, List.map_take, hstamps, List.take_range, Nat.min_eq_left hstop,
    List.range_eq_range', List.drop_range']
  simp

theorem Subscription.Valid.received_data {pushed : List (Stamped α)} {sub : Subscription α}
    (h : sub.Valid pushed) :
    sub.received.map MessageEvent.data =
      (pushed.take sub.calledAt).drop (sub.calledAt - SSE_REPLAY_COUNT) ++
        (pushed.take (sub.endsAt pushed)).drop sub.subscribedAt := by
  have hcalled : sub.calledAt ≤ pushed.length :=
    h.called_le.trans (h.subscribed_le.trans h.ends_le)
  have hdata : MessageEvent.data ∘ toMessageEvent = (id : Stamped α → Stamped α) := rfl
  rw [h.received, List.map_map, hdata, List.map_id, replayAt_eq_drop _ hcalled]

theorem Subscription.Valid.losesNothing_of_eq {pushed : List (Stamped α)}
    {sub : Subscription α} (h : sub.Valid pushed) (heq : sub.calledAt = sub.subscribedAt) :
    sub.LosesNothing pushed := by
  refine ⟨sub.calledAt - SSE_REPLAY_COUNT, by omega, by omega, ?_⟩
  rw [h.received_data, ← heq]
  exact drop_take_append (Nat.sub_le _ _) (heq ▸ h.subscribed_le)

theorem Subscription.Valid.losesNothing_of_zero {pushed : List (Stamped α)}
    {sub : Subscription α} (h : sub.Valid pushed) (hzero : sub.calledAt = 0) :
    sub.LosesNothing pushed := by
  refine ⟨sub.subscribedAt, le_refl _, by omega, ?_⟩
  simp [h.received_data, hzero]

/-- A replay that is not empty fixes the start of the block, and its end then
leaves no room for the entries pushed before the subscription. -/
theorem Subscription.Valid.eq_of_losesNothing {pushed : List (Stamped α)}
    {sub : Subscription α} (h : sub.Valid pushed)
    (hstamps : pushed.map Stamped.seq = List.range pushed.length)
    (hpos : 0 < sub.calledAt) (hblock : sub.LosesNothing pushed) :
    sub.calledAt = sub.subscribedAt := by
  obtain ⟨start, -, -, hdata⟩ := hblock
  have hends := h.ends_le
  have hsub := h.subscribed_le
  have hcalled := h.called_le
  rw [h.received_data] at hdata
  have hseq := congrArg (List.map Stamped.seq) hdata
  rw [List.map_append, seq_drop_take hstamps (by omega), seq_drop_take hstamps hends,
    seq_drop_take hstamps hends] at hseq
  have hlen := congrArg List.length hseq
  simp only [List.length_append, List.length_range'] at hlen
  have hhead := congrArg List.head? hseq
  have hreplay : sub.calledAt - (sub.calledAt - SSE_REPLAY_COUNT) ≠ 0 := by
    simp only [SSE_REPLAY_COUNT]
    omega
  have hblock : sub.endsAt pushed - start ≠ 0 := by omega
  simp only [List.head?_append, List.head?_range', hreplay, hblock, if_false,
    Option.some_or, Option.some.injEq] at hhead
  omega

/-- A subscriber receives one gapless block of the pushed sequence exactly when
no entry was pushed between the handler's call and the subscription, or none
had been pushed before the call. -/
theorem subscriber_losesNothing_iff (es : List (SseEvent α)) (sub : Subscription α)
    (hsub : sub ∈ (SseServer.serve es).subscriptions) :
    sub.LosesNothing (SseServer.serve es).pushed ↔
      sub.calledAt = sub.subscribedAt ∨ sub.calledAt = 0 := by
  have hserver := SseServer.serve_valid es
  have hvalid := hserver.subscriptions sub hsub
  constructor
  · intro hblock
    rcases Nat.eq_zero_or_pos sub.calledAt with hzero | hpos
    · exact Or.inr hzero
    · exact Or.inl (hvalid.eq_of_losesNothing hserver.stamps hpos hblock)
  · rintro (heq | hzero)
    · exact hvalid.losesNothing_of_eq heq
    · exact hvalid.losesNothing_of_zero hzero

def sampleEntry (jobId : String) : FeedEntry where
  source := .global
  queue := "webhooks"
  event := "active"
  jobId := some jobId
  recordedAt := 0

theorem subscriber_losesNothing_prompt :
    ∃ sub ∈ (SseServer.serve [.push (sampleEntry "a"), .stream, .subscribe 0,
        .push (sampleEntry "b")]).subscriptions,
      sub.LosesNothing (SseServer.serve [.push (sampleEntry "a"), .stream, .subscribe 0,
        .push (sampleEntry "b")]).pushed :=
  ⟨_, List.mem_singleton.mpr rfl,
    (subscriber_losesNothing_iff _ _ (List.mem_singleton.mpr rfl)).mpr (Or.inl rfl)⟩

/-- One entry falls between the call and the subscription: it is lost. -/
theorem subscriber_loses_entry :
    ¬ ∀ sub ∈ (SseServer.serve [.push (sampleEntry "a"), .stream, .push (sampleEntry "b"),
        .subscribe 0, .push (sampleEntry "c")]).subscriptions,
      sub.LosesNothing (SseServer.serve [.push (sampleEntry "a"), .stream,
        .push (sampleEntry "b"), .subscribe 0, .push (sampleEntry "c")]).pushed := by
  intro h
  obtain ⟨start, hle, -, hdata⟩ := h _ (List.mem_singleton.mpr rfl)
  have hseq := congrArg (List.map Stamped.seq) hdata
  rw [List.map_drop] at hseq
  have hreceived : [0, 2] = [0, 1, 2].drop start := hseq
  change start ≤ 2 at hle
  interval_cases start <;> simp at hreceived

end NestQueueExample.Events
