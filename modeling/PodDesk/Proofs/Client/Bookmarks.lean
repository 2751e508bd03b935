import Mathlib.Data.List.Forall2
import Mathlib.Logic.Relation
import PodDesk.Client.WatchStream
import PodDesk.Proofs.Replacement.Protocol
import PodDesk.Proofs.Replacement.Recreation

/-!
# Bookmarks go unnoticed

The server puts bookmarks between the events of a watch. They are kept from whoever reads the watch:
every other event is read as before, at the time at which it arrives, and so is the end of the
stream. A replacement that reads the watch may be woken when a bookmark arrives, but then it finds
nothing and goes on waiting. So it makes no difference to it where the bookmarks are.

## Main statements

- `Client.forall₂_shownAs_visibleItems`: what is read of the events of a server
- `Client.schedule_items`: when it is read
- `Client.sameNews_of_inserted`: bookmarks may be anywhere in a stream with the same news
- `World.runWoken_eq`: a task that is woken for nothing goes on as if it were not
- `Client.bookmarks_go_unnoticed`: replacements that read streams with the same news
-/

namespace PodDesk

namespace Client

/-! ## What is read of an event -/

/-- `ShownAs e item` says how the event `e` is read: news about a Pod with the Pod, an error status
by its message, and a failure as it is. -/
inductive ShownAs : ServerEvent → WatchItem → Prop where
  | added (pod : Pod) : ShownAs (.added pod) (.event (.added pod))
  | modified (pod : Pod) : ShownAs (.modified pod) (.event (.modified pod))
  | deleted (pod : Pod) : ShownAs (.deleted pod) (.event (.deleted pod))
  | error (code : UInt16) (reason message : String) :
      ShownAs (.error code reason message) (.event (.error message))
  | failed (cause : ClusterError) : ShownAs (.failed cause) (.failed cause)

/-- `ServerEvent.visible?` hides bookmarks, and of every other event something is read. -/
theorem visible?_cases (e : ServerEvent) :
    (e = .bookmark ∧ e.visible? = none) ∨
      (e ≠ .bookmark ∧ ∃ item, e.visible? = some item ∧ ShownAs e item) := by
  cases e with
  | bookmark => exact .inl ⟨rfl, rfl⟩
  | _ => exact .inr ⟨nofun, _, rfl, by constructor⟩

/-- `visibleItems` reads one item of every event that is no bookmark, in the order of the events. -/
theorem forall₂_shownAs_visibleItems (events : List ServerEvent) :
    List.Forall₂ ShownAs (events.filter (· ≠ .bookmark)) (visibleItems events) := by
  induction events with
  | nil => exact .nil
  | cons e events ih =>
    obtain ⟨rfl, hnone⟩ | ⟨hne, item, hitem, hshown⟩ := visible?_cases e
    · rw [visibleItems, List.filterMap_cons_none hnone, List.filter_cons_of_neg (by simp)]
      exact ih
    · rw [visibleItems, List.filterMap_cons_some hitem, List.filter_cons_of_pos (by simpa using hne)]
      exact .cons hshown ih

/-! ## Streams in time -/

/-- A stream as the server sends it: every event comes after a pause, and so may the end. -/
structure ServerStream where
  events : List (Nat × ServerEvent)
  ends : Option Nat := none

/-- `arrivals start events` has the events with the times at which they arrive. -/
def arrivals (start : Nat) : List (Nat × ServerEvent) → List (Nat × ServerEvent)
  | [] => []
  | (pause, e) :: events => (start + pause, e) :: arrivals (start + pause) events

/-- `lastArrival start events` is the time at which the last event arrives. -/
def lastArrival (start : Nat) : List (Nat × ServerEvent) → Nat
  | [] => start
  | (pause, _) :: events => lastArrival (start + pause) events

/-- `sinceNews waited events` is how long it is since the last event that is read when all events
have arrived. -/
def sinceNews (waited : Nat) : List (Nat × ServerEvent) → Nat
  | [] => waited
  | (pause, e) :: events =>
    match e.visible? with
    | some _ => sinceNews 0 events
    | none => sinceNews (waited + pause) events

/-- `readAt arrival` is what is read of an event that arrives at a time. -/
def readAt (arrival : Nat × ServerEvent) : Option (Nat × WatchItem) :=
  arrival.2.visible?.map (arrival.1, ·)

namespace ServerStream

/-- `s.items` is what is read of the stream `s`: its events without the bookmarks, and its end. -/
def items (s : ServerStream) : List ScriptedItem :=
  visibleScript 0 s.events ++ s.ends.toList.map fun pause => ⟨sinceNews 0 s.events + pause, .ended⟩

/-- The time of the end. -/
def endsAt (s : ServerStream) (start : Nat) : Option Nat :=
  s.ends.map (lastArrival start s.events + ·)

/-- `s.SameNews s'` says that the streams differ in their bookmarks alone: all other events arrive
at the same times in the same order, and the end comes at the same time. -/
structure SameNews (s s' : ServerStream) : Prop where
  events : (arrivals 0 s'.events).filter (·.2 ≠ .bookmark) =
    (arrivals 0 s.events).filter (·.2 ≠ .bookmark)
  ends : s'.endsAt 0 = s.endsAt 0

end ServerStream

variable {s s' : ServerStream}

/-- `visibleScript` adds up the pauses while nothing is read. -/
private theorem schedule_visibleScript (start waited : Nat) (events : List (Nat × ServerEvent))
    (ends : Option Nat) :
    Cluster.schedule start (visibleScript waited events ++
        ends.toList.map fun pause => ⟨sinceNews waited events + pause, .ended⟩) =
      (arrivals (start + waited) events).filterMap readAt ++
        ends.toList.map fun pause => (lastArrival (start + waited) events + pause, .ended) := by
  induction events generalizing start waited with
  | nil =>
    cases ends with
    | none => rfl
    | some pause => simp [visibleScript, sinceNews, arrivals, lastArrival, Cluster.schedule,
        Nat.add_assoc]
  | cons entry events ih =>
    obtain ⟨pause, e⟩ := entry
    obtain ⟨-, hnone⟩ | ⟨-, item, hitem, -⟩ := visible?_cases e
    -- A bookmark: its pause is added to what has been waited.
    · have hrest := ih start (waited + pause)
      simp only [visibleScript, sinceNews, hnone, arrivals, lastArrival]
      rw [hrest, List.filterMap_cons_none (by simp [readAt, hnone]), ← Nat.add_assoc]
    -- Something is read, and the waiting starts again from its arrival.
    · have hrest := ih (start + (waited + pause)) 0
      simp only [visibleScript, sinceNews, hitem, arrivals, lastArrival]
      rw [List.filterMap_cons_some (b := (start + waited + pause, item)) (by simp [readAt, hitem])]
      simp only [List.cons_append, Cluster.schedule, hrest, Nat.add_zero, Nat.add_assoc]

/-- `Cluster.schedule` reads everything at the time at which it arrives. -/
theorem schedule_items (start : Nat) (s : ServerStream) :
    Cluster.schedule start s.items =
      (arrivals start s.events).filterMap readAt ++ (s.endsAt start).toList.map (·, .ended) := by
  have h := schedule_visibleScript start 0 s.events s.ends
  rw [Nat.add_zero] at h
  rw [ServerStream.items, h, ServerStream.endsAt]
  cases s.ends <;> rfl

/-- `Cluster.schedule` is injective: items that are read at the same times come after the same
pauses. -/
theorem schedule_inj {start : Nat} {xs ys : List ScriptedItem}
    (h : Cluster.schedule start xs = Cluster.schedule start ys) : xs = ys := by
  induction xs generalizing start ys with
  | nil =>
    cases ys with
    | nil => rfl
    | cons y ys => simp [Cluster.schedule] at h
  | cons x xs ih =>
    cases ys with
    | nil => simp [Cluster.schedule] at h
    | cons y ys =>
      obtain ⟨after, item⟩ := x
      obtain ⟨after', item'⟩ := y
      simp only [Cluster.schedule, List.cons.injEq, Prod.mk.injEq, Nat.add_left_cancel_iff] at h
      obtain ⟨⟨rfl, rfl⟩, hrest⟩ := h
      rw [ih hrest]

/-- `readAt` finds nothing in bookmarks. -/
theorem filterMap_readAt_filter (xs : List (Nat × ServerEvent)) :
    (xs.filter (·.2 ≠ .bookmark)).filterMap readAt = xs.filterMap readAt := by
  rw [List.filterMap_filter]
  apply List.filterMap_congr
  intro arrival _
  obtain ⟨heq, -⟩ | ⟨hne, -⟩ := visible?_cases arrival.2
  · simp [heq, readAt, ServerEvent.visible?]
  · simp [hne]

/-- With `ServerStream.SameNews` the same is read of two streams. -/
theorem ServerStream.SameNews.items_eq (h : s.SameNews s') : s'.items = s.items := by
  refine @schedule_inj 0 _ _ ?_
  rw [schedule_items, schedule_items, ← filterMap_readAt_filter, h.events, h.ends,
    filterMap_readAt_filter]

/-! ## Bookmarks that are put into a stream -/

/-- `Inserted s s'` says that `s'` has one more bookmark than `s`, in the pause before an event or
after the last one. -/
inductive ServerStream.Inserted : ServerStream → ServerStream → Prop where
  | before (earlier later : List (Nat × ServerEvent)) (pause rest : Nat) (e : ServerEvent)
      (ends : Option Nat) :
      Inserted ⟨earlier ++ (pause + rest, e) :: later, ends⟩
        ⟨earlier ++ (pause, .bookmark) :: (rest, e) :: later, ends⟩
  | last (earlier : List (Nat × ServerEvent)) (pause : Nat) (ends : Option Nat) :
      Inserted ⟨earlier, ends.map (pause + ·)⟩ ⟨earlier ++ [(pause, .bookmark)], ends⟩

theorem arrivals_append (start : Nat) (xs ys : List (Nat × ServerEvent)) :
    arrivals start (xs ++ ys) = arrivals start xs ++ arrivals (lastArrival start xs) ys := by
  induction xs generalizing start with
  | nil => rfl
  | cons x xs ih => simp [arrivals, lastArrival, ih]

theorem lastArrival_append (start : Nat) (xs ys : List (Nat × ServerEvent)) :
    lastArrival start (xs ++ ys) = lastArrival (lastArrival start xs) ys := by
  induction xs generalizing start with
  | nil => rfl
  | cons x xs ih => simp [lastArrival, ih]

/-- `ServerStream.Inserted` puts in a bookmark, which is no news. -/
theorem sameNews_of_inserted (h : s.Inserted s') : s.SameNews s' := by
  cases h with
  | before earlier later pause rest e ends =>
    constructor
    · simp [arrivals_append, arrivals, Nat.add_assoc]
    · simp [ServerStream.endsAt, lastArrival_append, lastArrival, Nat.add_assoc]
  | last earlier pause ends =>
    constructor
    · simp [arrivals_append, arrivals]
    · simp [ServerStream.endsAt, lastArrival_append, lastArrival, Function.comp_def, Nat.add_assoc]

/-- `ServerStream.Inserted` any number of times, forwards and backwards, leaves the news as they
are. -/
theorem sameNews_of_eqvGen (h : Relation.EqvGen ServerStream.Inserted s s') : s.SameNews s' := by
  induction h with
  | rel s s' h => exact sameNews_of_inserted h
  | refl s => exact ⟨rfl, rfl⟩
  | symm s s' _ ih => exact ⟨ih.events.symm, ih.ends.symm⟩
  | trans s s' s'' _ _ ih ih' => exact ⟨ih'.events.trans ih.events, ih'.ends.trans ih.ends⟩

end Client

/-! ## Tasks that are woken for nothing -/

namespace World

variable {w : World} {i : Nat}

/-- `w.streaming incident s` has a cluster whose next watch delivers what is read of `s`, if
`incident` lets it open. -/
def streaming (w : World) (incident : Incident) (s : Client.ServerStream) : World :=
  { w with cluster := { w.cluster with
      script := fun kind =>
        if kind = .watch then
          some { incident with items := some s.items } :: w.cluster.script .watch
        else w.cluster.script kind } }

/-- `w.runWoken i times` lets things happen until task `i` is over, which is woken at some times.
Each time everything that was due before has happened; the task finds nothing new and waits again.
-/
def runWoken (w : World) (i : Nat) : List Nat → World
  | [] => w.runTask i none
  | time :: times =>
    let woken := w.runTask i (some time)
    { woken with now := max woken.now time }.runWoken i times

/-- `World.runTask` that was stopped at a time goes on as if it were not. -/
private theorem runTask_woken (hsound : w.IsSound) (i time : Nat) :
    let woken := w.runTask i (some time)
    ∃ now, { woken with now := max woken.now time }.runTask i none =
      { w.runTask i none with now := now } := by
  intro woken
  have hresume : woken.runTask i none = w.runTask i none := by
    refine run_run hsound (fun w time hwanted => ?_) w.budget
    simp only [Bool.and_eq_true] at hwanted
    simp [hwanted.1]
  rw [← hresume]
  cases hover : woken.isOver i with
  -- A task that is over already stays so, and nothing more happens.
  | true =>
    have hstop : ∀ v : World, v.isOver i = true → v.runTask i none = v := by
      intro v hv
      exact run_of_unwanted (by simp [hv]) _
    refine ⟨max woken.now time, (hstop { woken with now := max woken.now time } hover).trans ?_⟩
    rw [hstop woken hover]
  | false =>
    rcases Nat.lt_or_ge woken.now time with hlt | hge
    · rw [Nat.max_eq_right (Nat.le_of_lt hlt)]
      have hquiet : woken.QuietBefore time := quietBefore_runTask hsound hover
      -- Nothing is due between the stop and the time of waking.
      rcases hquiet.run hlt (fun w time => ! w.isOver i && (none : Option Nat).all (time < ·))
        (fun _ => rfl) woken.budget with hsame | ⟨hmoved, hstayed⟩
      · exact ⟨_, hsame⟩
      · refine ⟨time, hmoved.trans ?_⟩
        rw [show woken.runTask i none = woken from hstayed]
    · rw [Nat.max_eq_left hge]
      exact ⟨_, rfl⟩

/-- `World.runWoken` changes nothing: a task that is woken for nothing, however often and at
whatever times, does what it would have done. Only the clock may show a later time when it is over.
-/
theorem runWoken_eq (hsound : w.IsSound) (i : Nat) (times : List Nat) :
    ∃ now, w.runWoken i times = { w.runTask i none with now := now } := by
  induction times generalizing w with
  | nil => exact ⟨_, rfl⟩
  | cons time times ih =>
    have hsound' : (w.runTask i (some time)).IsSound := hsound.run _ _
    obtain ⟨now, hrun⟩ := runTask_woken hsound i time
    obtain ⟨now', hrest⟩ := ih (w := { w.runTask i (some time) with
      now := max (w.runTask i (some time)).now time }) hsound'
    exact ⟨now', by rw [runWoken, hrest, hrun]⟩

end World

namespace Client

/-- Bookmarks go unnoticed. One item is read of every other event, in the order of the events and
at the time at which it arrives. So streams that differ by bookmarks which were put in anywhere have
the same news, and replacements that read streams with the same news make the same calls at the same
times and come out in the same way, whenever a bookmark wakes them. -/
theorem bookmarks_go_unnoticed :
    (∀ events, List.Forall₂ ShownAs (events.filter (· ≠ .bookmark)) (visibleItems events)) ∧
    (∀ (s : ServerStream) (start : Nat), Cluster.schedule start s.items =
      (arrivals start s.events).filterMap readAt ++ (s.endsAt start).toList.map (·, .ended)) ∧
    (∀ s s' : ServerStream, Relation.EqvGen ServerStream.Inserted s s' → s.SameNews s') ∧
    ∀ (w : World) (p : Plan) (wait : Nat) (incident : Incident) (s s' : ServerStream)
      (times times' : List Nat), w.IsSound → s.SameNews s' →
      let start := fun s => (w.streaming incident s).spawn p wait
      let final := (start s).1.runWoken (start s).2 times
      let final' := (start s').1.runWoken (start s').2 times'
      final'.log = final.log ∧
        (final'.tasks[(start s').2]?).bind (·.result?) =
          (final.tasks[(start s).2]?).bind (·.result?) ∧
        final'.cluster.pods = final.cluster.pods := by
  refine ⟨forall₂_shownAs_visibleItems, fun s start => schedule_items start s,
    fun _ _ => sameNews_of_eqvGen, ?_⟩
  intro w p wait incident s s' times times' hsound hnews start final final'
  -- Both worlds start from the same script, as the same is read of both streams.
  have hstart : start s' = start s := by
    simp only [start, World.streaming, hnews.items_eq]
  have hsound' : (start s).1.IsSound := World.isSound_spawn _ p wait hsound
  obtain ⟨now, hfinal⟩ := World.runWoken_eq hsound' (start s).2 times
  obtain ⟨now', hfinal'⟩ := World.runWoken_eq hsound' (start s).2 times'
  have hruns : final' = { final with now := now' } := by
    simp only [final', final, hstart, hfinal, hfinal']
  rw [hruns, hstart]
  exact ⟨rfl, rfl, rfl⟩

/-- A world where `Cluster.script` lets the Pod that is stored take a while to go. -/
def watchedWorld : World where
  cluster := {
    pods := SortedMap.empty.insert ⟨"prod", "web"⟩ { metadata := { name := some "web" } }
    script := fun
      | .delete => [some { removeAfter := 400 }]
      | _ => [] }

/-- A stream with news of the Pod that is going and of its removal. -/
def plainStream : ServerStream where
  events := [(100, .modified { metadata := { name := some "web" } }),
    (350, .deleted { metadata := { name := some "web" } })]

/-- `plainStream` with a bookmark before each event and one after them. -/
def markedStream : ServerStream where
  events := [(60, .bookmark), (40, .modified { metadata := { name := some "web" } }),
    (200, .bookmark), (150, .deleted { metadata := { name := some "web" } }), (10, .bookmark)]

/-- A server that sends bookmarks and then ends the watch. -/
def expiredEvents : List ServerEvent :=
  [.bookmark, .error 410 "Expired" "too old resource version", .bookmark]

/-- `bookmarks_go_unnoticed` with bookmarks in a watch, where each wakes the replacement: it looks
the Pod up once and creates the new one when the removal is announced, as it does without them. Of
`expiredEvents` the message is read and nothing else. -/
theorem marked_stream_goes_unnoticed :
    let plan : Plan := ⟨{ base := { name := "web", ns := "prod" } }, 0⟩
    let start := (watchedWorld.streaming {} markedStream).spawn plan 5000
    let final := start.1.runWoken start.2 [60, 300, 460]
    final.log.map (fun entry => (entry.1, entry.2.kind)) = [(0, .get), (0, .dryRun), (0, .watch),
      (0, .delete), (100, .get), (450, .create)] ∧
    (final.tasks[start.2]?).bind (·.result?) = some (.ok (.ok ⟨plan.key, some .deletedEvent⟩)) ∧
    visibleItems expiredEvents = [.event (.error "too old resource version")] := by
  intro plan start final
  have hsound : watchedWorld.IsSound := fun t ht => absurd ht List.not_mem_nil
  have hnews : plainStream.SameNews markedStream := ⟨by decide, by decide⟩
  obtain ⟨hlog, hresult, -⟩ := bookmarks_go_unnoticed.2.2.2 watchedWorld plan 5000 {}
    plainStream markedStream [] [60, 300, 460] hsound hnews
  rw [hlog, hresult]
  refine ⟨by decide +kernel, by decide +kernel, ?_⟩
  have hshown := bookmarks_go_unnoticed.1 expiredEvents
  -- One event is no bookmark, and `ShownAs` leaves one item for it.
  rw [show expiredEvents.filter (· ≠ .bookmark) = [.error 410 "Expired" "too old resource version"]
    from by decide] at hshown
  cases hshown with
  | cons hitem hrest =>
    cases hitem
    cases hrest
    rfl

end Client

end PodDesk
