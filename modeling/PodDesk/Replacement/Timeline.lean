import PodDesk.Cluster.Scripted
import PodDesk.Number.Word
import PodDesk.Replacement.Stage

/-!
# Replacements in time

Replacements run side by side against a scripted cluster while a virtual clock goes on. Time passes
only while everyone waits: whatever is due next happens, and the clock moves there. `World.tick` is
one such event and `World.run` a chain of them. A replacement goes on until it has to wait before
another one gets its turn.
-/

namespace PodDesk

/-- Why a replacement ended without an outcome. -/
inductive Crash where
  /-- A call took it down. -/
  | call
  /-- Its deadline is beyond what the clock can show. -/
  | deadline
  deriving DecidableEq, Repr

/-- What a running replacement is doing: taking its next step, or hearing back from a call at a
time. -/
inductive Activity where
  | ready
  | calling (due : Nat) (incident : Incident)
  | crashed (cause : Crash)

/-- A replacement that runs. -/
structure Task where
  plan : Plan
  /-- How long it waits for a removal, in milliseconds. -/
  wait : Nat
  started : Nat
  stage : Stage := .lookup
  activity : Activity := .ready
  deadline : Nat := 0
  watch : Option Nat := none

/-- How many replacements came out in which way, and how long all of them took. -/
structure Metrics where
  counts : SortedMap String Nat := .empty
  count : Nat := 0
  total : Nat := 0

/-- The cluster, the replacements that use it, and the clock. -/
structure World where
  now : Nat := 0
  cluster : Cluster := {}
  tasks : List Task := []
  /-- The task that had the last turn. -/
  turn : Option Nat := none
  /-- The calls so far, with the times at which they were made. -/
  log : List (Nat × Call) := []
  metrics : Metrics := {}

/-- `endOfTime` is where the times that the clock can show end. -/
def endOfTime : Nat :=
  (word63 - 1) * 1000

/-- `m.record outcome duration` counts the outcome of a replacement and how long it took. -/
def Metrics.record (m : Metrics) (outcome : Outcome) (duration : Nat) : Metrics :=
  { counts := m.counts.insert outcome.label ((m.counts.get? outcome.label).getD 0 + 1)
    count := m.count + 1
    total := m.total + duration }

namespace Task

/-- `t.result?` is what came of the task `t`: its outcome, or why it crashed. There is nothing while
it goes on. -/
def result? (t : Task) : Option (Except Crash Outcome) :=
  match t.activity with
  | .crashed cause => some (.error cause)
  | _ => t.stage.outcome?.map .ok

/-- `t.isOver` says whether nothing more will happen in the task `t`. -/
def isOver (t : Task) : Bool :=
  t.result?.isSome

/-- `Task.due?` is when the next step of a task is due. -/
def due? (c : Cluster) (now : Nat) (t : Task) : Option Nat :=
  match t.activity, t.stage with
  | .crashed _, _ => none
  | .calling due _, .probing => some (min due t.deadline)
  | .calling due _, _ => some due
  | .ready, .finished _ => none
  | .ready, .waiting true =>
    some (match t.watch.bind c.peek with
      | some (due, _) => min due t.deadline
      | none => t.deadline)
  | .ready, .waiting false => some t.deadline
  | .ready, _ => some now

/-- `itemCount c t` is how many items the task `t` may still read, unless it is over: those that
wait in its watch, and those that the call for its watch brings. -/
def itemCount (c : Cluster) (t : Task) : Nat :=
  if t.isOver then 0
  else
    c.unread t.watch +
      match t.activity, t.stage with
      | .calling _ incident, .watch _ => incident.itemCount
      | _, _ => 0

/-- `t.hear now reply` is the task after it has heard the reply. A wait gets its deadline when it
starts. -/
def hear (t : Task) (now : Nat) (reply : Reply) : Task :=
  let stage := t.stage.next t.plan reply
  match t.stage, stage with
  | .delete _, .waiting _ =>
    let deadline := now + t.wait
    { t with
      stage, deadline
      activity := if deadline < endOfTime then .ready else .crashed .deadline }
  | _, _ => { t with stage, activity := .ready }

end Task

/-- `c.reply i now` is what the cluster does with a call of a replacement once its delay is over:
the cluster after it, the reply, and the watch that was opened. -/
def Cluster.reply (c : Cluster) (i : Incident) (now : Nat) : Call → Cluster × Reply × Option Nat
  | .get key => (c, .found (c.lookup i key), none)
  | .create ns pod =>
    let (c, answer) := c.create i ns pod
    (c, .done answer, none)
  | .delete key _ =>
    let (c, answer) := c.delete i now key
    (c, .done answer, none)
  | .watch ns _ _ =>
    match c.openWatch i now ns with
    | (c, .ok watch) => (c, .done (.ok ()), some watch)
    | (c, .error e) => (c, .done (.error e), none)
  | _ => (c, .done (Cluster.checked i), none)

namespace World

/-- Who acts next. -/
inductive Actor where
  | removal (index : Nat)
  | task (index : Nat)
  deriving DecidableEq, Repr

/-- `w.taskEntry i` is when task `i` is going to act. What is due in the past happens now. -/
def taskEntry (w : World) (i : Nat) : Option (Nat × Actor) :=
  (w.tasks[i]?.bind (·.due? w.cluster w.now)).map fun due => (max w.now due, .task i)

/-- `w.agenda` has everyone who is going to act, with the time of it. The task that had the last
turn comes first. -/
def agenda (w : World) : List (Nat × Actor) :=
  (w.turn.bind w.taskEntry).toList ++
    (w.cluster.removals.mapIdx fun i r => (max w.now r.due, .removal i)) ++
    (List.range w.tasks.length).filterMap w.taskEntry

/-- `earliest` is the first of the entries with the earliest time. -/
def earliest : List (Nat × Actor) → Option (Nat × Actor)
  | [] => none
  | entry :: rest =>
    match earliest rest with
    | none => some entry
    | some other => if other.1 < entry.1 then some other else some entry

/-- `w.next?` is what happens next, and when. -/
def next? (w : World) : Option (Nat × Actor) :=
  earliest w.agenda

/-- `w.enter call` puts the call into the log, and gives the incident that it meets. -/
def enter (w : World) (call : Call) : World × Incident :=
  ({ w with
      log := w.log ++ [(w.now, call)]
      cluster := w.cluster.advance call.kind },
    w.cluster.incident call.kind)

/-- `w.putTask i t` puts `t` in the place of task `i`, and counts its outcome when it has just
finished. -/
def putTask (w : World) (i : Nat) (t : Task) : World :=
  let w := { w with tasks := w.tasks.set i t, turn := some i }
  match t.stage.outcome? with
  | some outcome => { w with metrics := w.metrics.record outcome (w.now - t.started) }
  | none => w

/-- `w.deliver` lets a task hear from the cluster. -/
def deliver (w : World) (i : Nat) (t : Task) (incident : Incident) : World :=
  if incident.crash then w.putTask i { t with activity := .crashed .call }
  else
    match t.stage.call? t.plan with
    | none => w
    | some call =>
      let (cluster, reply, watch) := w.cluster.reply incident w.now call
      { w with cluster }.putTask i ({ t with watch := watch.or t.watch }.hear w.now reply)

/-- `w.stepTask i t` takes one step of the task `t`, which is due. The deadline of a wait comes
first among what is due at its millisecond: a probe whose answer is due exactly then has timed out,
and news that arrives then is not read. A scheduler that looks at the answer before the timer, or at
either of them by chance, may decide such a tie the other way. -/
def stepTask (w : World) (i : Nat) (t : Task) : World :=
  match t.activity, t.stage with
  | .crashed _, _ => w
  | .calling due incident, .probing =>
    if t.deadline ≤ due ∧ t.deadline ≤ w.now then w.putTask i (t.hear w.now .deadline)
    else w.deliver i t incident
  | .calling _ incident, _ => w.deliver i t incident
  | .ready, .waiting watching =>
    if t.deadline ≤ w.now then w.putTask i (t.hear w.now .deadline)
    else
      match t.watch, watching with
      | some watch, true =>
        match w.cluster.peek watch with
        | some (_, item) =>
          { w with cluster := w.cluster.pop watch }.putTask i (t.hear w.now (.item item))
        | none => w
      | _, _ => w
  | .ready, stage =>
    match stage.call? t.plan with
    | none => w
    | some call =>
      let (w, incident) := w.enter call
      w.putTask i { t with activity := .calling (w.now + incident.delay) incident }

/-- `w.stepRemoval i r` carries out the removal `r` of a Pod. -/
def stepRemoval (w : World) (i : Nat) (r : Removal) : World :=
  let cluster := { w.cluster with removals := w.cluster.removals.eraseIdx i }
  { w with cluster := cluster.remove w.now r.key r.silent, turn := none }

/-- `w.tick time` lets what is due at `time` happen, and moves the clock there. -/
def tick (w : World) (time : Nat) : Actor → World
  | .removal i =>
    match w.cluster.removals[i]? with
    | some r => { w with now := time }.stepRemoval i r
    | none => w
  | .task i =>
    match w.tasks[i]? with
    | some t => { w with now := time }.stepTask i t
    | none => w

/-- `run wanted` makes up to so many ticks, as long as the next one is wanted. -/
def run (wanted : World → Nat → Bool) : Nat → World → World
  | 0, w => w
  | n + 1, w =>
    match w.next? with
    | some (time, actor) => if wanted w time then run wanted n (w.tick time actor) else w
    | none => w

/-- `total f` adds `f` up over a list. -/
def total {α : Type} (f : α → Nat) : List α → Nat
  | [] => 0
  | x :: xs => f x + total f xs

/-- `scriptedItems c` is how many scripted items watches may still deliver. -/
def scriptedItems (c : Cluster) : Nat :=
  total (fun i => (i.map (·.itemCount)).getD 0) (c.script .watch)

/-- `w.budget` is more than the ticks that can happen without a new task. A removal is read by every
task, a task makes some twenty steps and one removal, and an item costs three. -/
def budget (w : World) : Nat :=
  let tasks := w.tasks.length
  tasks * (24 + 3 * tasks) + w.cluster.removals.length * (1 + 3 * tasks)
    + 3 * total (·.itemCount w.cluster) w.tasks + 3 * scriptedItems w.cluster

/-- `w.runBefore limit` lets everything happen that is due before `limit`. -/
def runBefore (w : World) (limit : Nat) : World :=
  run (fun _ time => time < limit) w.budget w

/-- `w.settle` lets everything happen that is due by now. -/
def settle (w : World) : World :=
  w.runBefore (w.now + 1)

/-- `w.advanceTo time` lets everything happen that is due before `time`, and moves the clock there.
-/
def advanceTo (w : World) (time : Nat) : World :=
  let w := w.runBefore time
  { w with now := max w.now time }

/-- `w.isOver i` says whether nothing more will happen in task `i`. -/
def isOver (w : World) (i : Nat) : Bool :=
  match w.tasks[i]? with
  | some t => t.isOver
  | none => true

/-- `w.runTask i limit` lets things happen until task `i` is over, or until `limit`. -/
def runTask (w : World) (i : Nat) (limit : Option Nat) : World :=
  run (fun w time => ! w.isOver i && limit.all (time < ·)) w.budget w

/-- `w.spawn plan wait` is the world with one more task, and the number of that task. -/
def spawn (w : World) (plan : Plan) (wait : Nat) : World × Nat :=
  ({ w with tasks := w.tasks ++ [{ plan, wait, started := w.now }] }, w.tasks.length)

end World

end PodDesk
