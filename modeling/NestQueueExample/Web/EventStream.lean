import NestQueueExample.Events.Stream

/-!
# The dashboard's event stream across reconnects

The hook prepends every entry it receives and keeps the newest 200. The
browser's event source reconnects by itself after a drop; each connection
delivers the replay and then the live entries until it drops, one message at a
time. What a drop finds on the wire is lost.
-/

namespace NestQueueExample.Web

open SlidingWindow Runs Events

def MAX_FEED_ENTRIES : ℕ := 200

inductive EventStreamStatus where
  | connecting
  | opened
  | error
  deriving DecidableEq

/-- The text of a message, by what `JSON.parse` makes of it. -/
inductive WireText (α : Type*) where
  | json (entry : α)
  | malformed (raw : String)

def parseEntry {α : Type*} : WireText α → Option α
  | .json entry => some entry
  | .malformed _ => none

structure EventStreamResult (α : Type*) where
  entries : List α := []
  status : EventStreamStatus := .connecting

namespace EventStreamResult

variable {α : Type*}

def handleOpen (state : EventStreamResult α) : EventStreamResult α :=
  { state with status := .opened }

def handleMessage (state : EventStreamResult α) (text : WireText α) : EventStreamResult α :=
  match parseEntry text with
  | none => state
  | some entry =>
      { state with entries := slice (entry :: state.entries) 0 (some MAX_FEED_ENTRIES) }

def handleError (state : EventStreamResult α) : EventStreamResult α :=
  { state with status := .error }

@[simp] theorem handleMessage_json (state : EventStreamResult α) (entry : α) :
    (state.handleMessage (.json entry)).entries =
      (entry :: state.entries).take MAX_FEED_ENTRIES := by
  simp only [handleMessage, parseEntry]
  exact slice_take MAX_FEED_ENTRIES _

end EventStreamResult

/-- An open connection: the messages on the wire, the number of entries pushed
before it was opened, and the number of messages it has delivered. -/
structure Connection (α : Type*) where
  inFlight : List (MessageEvent (Stamped α))
  openedAt : ℕ
  delivered : ℕ

/-- The server's feed and one mounted hook. `seen` is one more than the stamp of
the last entry the hook received, and 0 before the first. -/
structure Dashboard (α : Type*) where
  feed : EventFeed (Stamped α) := {}
  pushed : List (Stamped α) := []
  connection : Option (Connection α) := none
  hook : EventStreamResult (Stamped α) := {}
  seen : ℕ := 0

inductive DashboardEvent (α : Type*) where
  | push (entry : α)
  | connect
  | deliver
  | drop

namespace Dashboard

variable {α : Type*}

def push (d : Dashboard α) (entry : α) : Dashboard α :=
  let stamped := ⟨d.pushed.length, entry⟩
  { d with
    feed := d.feed.push stamped
    pushed := d.pushed ++ [stamped]
    connection := d.connection.map fun c ↦
      { c with inFlight := c.inFlight ++ [toMessageEvent stamped] } }

/-- The event source opens: the server's handler is called and its observable
subscribed, which puts the replay on the wire. -/
def connect (d : Dashboard α) : Dashboard α :=
  match d.connection with
  | some _ => d
  | none =>
      { d with
        connection := some ⟨(EventsController.stream d.feed).emits, d.pushed.length, 0⟩
        hook := d.hook.handleOpen }

def deliver (d : Dashboard α) : Dashboard α :=
  match d.connection with
  | some ⟨message :: rest, openedAt, delivered⟩ =>
      { d with
        connection := some ⟨rest, openedAt, delivered + 1⟩
        hook := d.hook.handleMessage (.json message.data)
        seen := message.data.seq + 1 }
  | _ => d

def drop (d : Dashboard α) : Dashboard α :=
  match d.connection with
  | some _ => { d with connection := none, hook := d.hook.handleError }
  | none => d

def step (d : Dashboard α) : DashboardEvent α → Dashboard α
  | .push entry => d.push entry
  | .connect => d.connect
  | .deliver => d.deliver
  | .drop => d.drop

/-- A connection delivers its first message only when the hook has received
nothing yet, or when the 20 replayed entries were all pushed after the last
entry it received. -/
def FreshReplay (d : Dashboard α) : DashboardEvent α → Prop
  | .deliver => ∀ c, d.connection = some c → c.inFlight ≠ [] → c.delivered = 0 →
      d.seen = 0 ∨ d.seen + SSE_REPLAY_COUNT ≤ c.openedAt
  | _ => True

end Dashboard

variable {α : Type*}

structure NewestFirst (pushed entries : List (Stamped α)) : Prop where
  decreasing : (entries.map Stamped.seq).Pairwise (· > ·)
  length_le : entries.length ≤ MAX_FEED_ENTRIES
  subset : ∀ entry ∈ entries, entry ∈ pushed

/-! ## What a connection carries -/

def Connection.next (c : Connection α) : ℕ := c.openedAt - SSE_REPLAY_COUNT + c.delivered

/-- The wire holds every pushed entry from the next one on, and the messages
delivered so far are the reason for `seen`. -/
structure Connection.Carries (pushed : List (Stamped α)) (seen : ℕ)
    (c : Connection α) : Prop where
  opened_le : c.openedAt ≤ pushed.length
  next_le : c.next ≤ pushed.length
  inFlight : c.inFlight.map MessageEvent.data = pushed.drop c.next
  seen_eq : 0 < c.delivered → seen = c.next

structure Dashboard.Fresh (d : Dashboard α) : Prop where
  buffer : d.feed.buffer = d.pushed.rtake FEED_BUFFER_CAPACITY
  stamps : d.pushed.map Stamped.seq = List.range d.pushed.length
  newest : NewestFirst d.pushed d.hook.entries
  head : d.hook.entries.head?.map Stamped.seq = if d.seen = 0 then none else some (d.seen - 1)
  connection : ∀ c, d.connection = some c → c.Carries d.pushed d.seen

theorem Connection.Carries.push {pushed : List (Stamped α)} {seen : ℕ} {c : Connection α}
    (h : c.Carries pushed seen) (x : Stamped α) :
    Connection.Carries (pushed ++ [x]) seen
      { c with inFlight := c.inFlight ++ [toMessageEvent x] } where
  opened_le := h.opened_le.trans (by simp)
  next_le := h.next_le.trans (by simp)
  inFlight := by
    rw [List.map_append, h.inFlight]
    exact (List.drop_append_of_le_length h.next_le).symm
  seen_eq := h.seen_eq

theorem Connection.Carries.head {pushed : List (Stamped α)} {seen : ℕ} {c : Connection α}
    (h : c.Carries pushed seen) (hstamps : pushed.map Stamped.seq = List.range pushed.length)
    {message : MessageEvent (Stamped α)} {rest : List (MessageEvent (Stamped α))}
    (hwire : c.inFlight = message :: rest) :
    c.next < pushed.length ∧ message.data ∈ pushed ∧ message.data.seq = c.next ∧
      rest.map MessageEvent.data = pushed.drop (c.next + 1) := by
  have hdrop := h.inFlight
  rw [hwire, List.map_cons] at hdrop
  have hlt : c.next < pushed.length := by
    by_contra hge
    rw [List.drop_eq_nil_of_le (by omega)] at hdrop
    exact List.cons_ne_nil _ _ hdrop
  rw [List.drop_eq_getElem_cons hlt, List.cons.injEq] at hdrop
  have hseq : pushed[c.next].seq = c.next := by
    have hget : (pushed.map Stamped.seq)[c.next]? = some c.next := by
      rw [hstamps, List.getElem?_range hlt]
    simpa [hlt] using hget
  exact ⟨hlt, hdrop.1 ▸ List.getElem_mem hlt, hdrop.1 ▸ hseq, hdrop.2⟩

namespace Dashboard.Fresh

variable {d : Dashboard α}

theorem push (h : d.Fresh) (entry : α) : (d.push entry).Fresh where
  buffer := EventFeed.push_buffer_eq_rtake h.buffer _
  stamps := by simp [Dashboard.push, h.stamps, List.range_succ]
  newest := ⟨h.newest.decreasing, h.newest.length_le,
    fun e he ↦ List.mem_append_left _ (h.newest.subset e he)⟩
  head := h.head
  connection := by
    intro c hc
    obtain ⟨old, hold, rfl⟩ := Option.map_eq_some_iff.mp hc
    exact (h.connection old hold).push _

theorem connect (h : d.Fresh) : d.connect.Fresh := by
  cases hconn : d.connection with
  | some c => simpa [Dashboard.connect, hconn] using h
  | none =>
      have hreplay : d.feed.recent SSE_REPLAY_COUNT = d.pushed.rtake SSE_REPLAY_COUNT :=
        EventFeed.recent_eq_rtake h.buffer (by decide) (by decide)
      have hdata : MessageEvent.data ∘ toMessageEvent = (id : Stamped α → Stamped α) := rfl
      have hnew : d.connect =
          { d with
            connection := some
              ⟨(d.pushed.rtake SSE_REPLAY_COUNT).map toMessageEvent, d.pushed.length, 0⟩
            hook := d.hook.handleOpen } := by
        simp [Dashboard.connect, hconn, hreplay]
      rw [hnew]
      refine ⟨h.buffer, h.stamps, h.newest, h.head, ?_⟩
      rintro c ⟨rfl⟩
      refine ⟨le_refl _, by simp [Connection.next], ?_, by simp⟩
      simp [Connection.next, List.map_map, hdata, List.rtake]

theorem drop (h : d.Fresh) : d.drop.Fresh := by
  cases hconn : d.connection with
  | none => simpa [Dashboard.drop, hconn] using h
  | some c =>
      simp only [Dashboard.drop, hconn]
      exact ⟨h.buffer, h.stamps, h.newest, h.head, by simp⟩

theorem newestFirst_cons (h : d.Fresh) {entry : Stamped α} (hmem : entry ∈ d.pushed)
    (hseen : d.seen ≤ entry.seq) :
    NewestFirst d.pushed ((entry :: d.hook.entries).take MAX_FEED_ENTRIES) := by
  have hbelow : ∀ k ∈ d.hook.entries.map Stamped.seq, k < entry.seq := by
    intro k hk
    have hhead := h.head
    have hsorted := h.newest.decreasing
    cases hentries : d.hook.entries with
    | nil => simp [hentries] at hk
    | cons newest older =>
        simp only [hentries, List.head?_cons, Option.map_some] at hhead
        have hseen' : newest.seq + 1 = d.seen := by
          split at hhead
          · simp at hhead
          · simp only [Option.some.injEq] at hhead
            omega
        simp only [hentries, List.map_cons, List.pairwise_cons, List.mem_cons] at hsorted hk
        rcases hk with rfl | hk
        · omega
        · have := hsorted.1 k hk
          omega
  refine ⟨?_, by simp, ?_⟩
  · rw [List.map_take]
    exact (List.pairwise_cons.mpr ⟨hbelow, h.newest.decreasing⟩).take
  · intro e he
    rcases List.mem_cons.mp (List.mem_of_mem_take he) with rfl | hold
    · exact hmem
    · exact h.newest.subset e hold

theorem deliver_eq (d : Dashboard α) {message : MessageEvent (Stamped α)}
    {rest : List (MessageEvent (Stamped α))} {openedAt delivered : ℕ}
    (hconn : d.connection = some ⟨message :: rest, openedAt, delivered⟩) :
    d.deliver = { d with
      connection := some ⟨rest, openedAt, delivered + 1⟩
      hook := d.hook.handleMessage (.json message.data)
      seen := message.data.seq + 1 } := by
  simp [Dashboard.deliver, hconn]

theorem deliver (h : d.Fresh) (hgood : d.FreshReplay .deliver) : d.deliver.Fresh := by
  match hconn : d.connection with
  | none => simpa [Dashboard.deliver, hconn] using h
  | some ⟨[], openedAt, delivered⟩ => simpa [Dashboard.deliver, hconn] using h
  | some ⟨message :: rest, openedAt, delivered⟩ =>
      have hcarries := h.connection _ hconn
      obtain ⟨hlt, hmem, hseq, hrest⟩ := hcarries.head h.stamps rfl
      have hseen : d.seen ≤ message.data.seq := by
        rw [hseq]
        rcases Nat.eq_zero_or_pos delivered with hzero | hpos
        · have := hgood _ hconn (by simp) hzero
          simp only [Connection.next, hzero] at this ⊢
          omega
        · exact (hcarries.seen_eq hpos).le
      have hnewest := h.newestFirst_cons hmem hseen
      rw [deliver_eq d hconn]
      refine ⟨h.buffer, h.stamps, by simpa using hnewest, ?_, ?_⟩
      · simp [MAX_FEED_ENTRIES]
      · rintro c ⟨rfl⟩
        have hnext : Connection.next ⟨rest, openedAt, delivered + 1⟩ =
            Connection.next ⟨message :: rest, openedAt, delivered⟩ + 1 := by
          simp only [Connection.next]
          omega
        refine ⟨hcarries.opened_le, ?_, ?_, fun _ ↦ ?_⟩
        · rw [hnext]
          exact hlt
        · rw [hnext]
          exact hrest
        · rw [hnext, hseq]

theorem step (h : d.Fresh) (e : DashboardEvent α) (hgood : d.FreshReplay e) :
    (d.step e).Fresh := by
  cases e with
  | push entry => exact h.push entry
  | connect => exact h.connect
  | deliver => exact h.deliver hgood
  | drop => exact h.drop

theorem freshReplay_of_newestFirst (h : d.Fresh) (e : DashboardEvent α)
    (hnewest : NewestFirst (d.step e).pushed (d.step e).hook.entries) : d.FreshReplay e := by
  cases e with
  | push | connect | drop => trivial
  | deliver =>
      rintro ⟨inFlight, openedAt, delivered⟩ hconn hwire hzero
      obtain ⟨message, rest, rfl⟩ := List.exists_cons_of_ne_nil hwire
      obtain ⟨-, -, hseq, -⟩ := (h.connection _ hconn).head h.stamps rfl
      obtain rfl : delivered = 0 := hzero
      have hdecreasing := hnewest.decreasing
      rw [Dashboard.step, deliver_eq d hconn, EventStreamResult.handleMessage_json] at hdecreasing
      have hhead := h.head
      cases hentries : d.hook.entries with
      | nil =>
          left
          by_contra hne
          simp [hentries, hne] at hhead
      | cons newest older =>
          right
          change d.seen + SSE_REPLAY_COUNT ≤ openedAt
          simp only [hentries, List.head?_cons, Option.map_some] at hhead
          simp only [hentries, MAX_FEED_ENTRIES, List.take_succ_cons, List.map_cons,
            List.pairwise_cons, List.mem_cons, forall_eq_or_imp] at hdecreasing
          have hgt : newest.seq < message.data.seq := hdecreasing.1.1
          simp only [Connection.next] at hseq
          split at hhead
          · simp at hhead
          · simp only [Option.some.injEq] at hhead
            omega

end Dashboard.Fresh

theorem Dashboard.fresh_initial : ({} : Dashboard α).Fresh where
  buffer := by simp
  stamps := by simp
  newest := ⟨by simp, by simp, by simp⟩
  head := by simp
  connection := by simp

/-- The entries shown are newest first and distinct at every moment of a run
exactly when every replay that begins to arrive is fresh. -/
theorem entries_newestFirst_iff (es : List (DashboardEvent α)) :
    Throughout Dashboard.step (fun d ↦ NewestFirst d.pushed d.hook.entries) {} es ↔
      AllSteps Dashboard.step Dashboard.FreshReplay {} es :=
  throughout_iff_allSteps (fun _ e h hgood ↦ h.step e hgood) (fun _ h ↦ h.newest)
    (fun _ e h hnewest ↦ h.freshReplay_of_newestFirst e hnewest) Dashboard.fresh_initial

/-- One entry, received, and received again after a reconnect. -/
theorem entries_repeated_after_reconnect :
    ¬ Throughout Dashboard.step (fun d ↦ NewestFirst d.pushed d.hook.entries) {}
      [.push (sampleEntry "a"), .connect, .deliver, .drop, .connect, .deliver] := by
  intro h
  have hlast := (h _ List.prefix_rfl).decreasing
  have hentries : [0, 0].Pairwise (· > ·) := hlast
  simp at hentries

end NestQueueExample.Web
