import PodDesk.Replacement.Stage

/-!
# How a wait for a removal ends

A replacement that waits for the removal of a Pod goes by what its watch delivers: the removal of
that Pod ends the wait, other news are a reason to look, and a watch that fails says nothing more.
`awaitRemoval` is the end of such a wait as a function of the items of the watch, the lookups and
the deadline, without a cluster and without steps.

## Main statements

- `awaitRemoval`: in which way and when a wait ends, and which lookups are made until then
- `awaitRemoval_time`: the deadline is kept, and only the deadline ends a wait at that time
- `awaitRemoval_congr`: lookups matter only from the time on at which the wait goes on
- `Stage.onItem_eq`: a replacement goes by the meaning of an item
-/

namespace PodDesk

/-- What a `WatchItem` means to a replacement that waits for the removal of a Pod. -/
inductive News where
  /-- The Pod was removed. -/
  | gone
  /-- There is reason to look. -/
  | hint
  /-- There will be no more news. -/
  | silence

/-- What an item means when the Pod called `name` is to be removed. -/
def WatchItem.news (name : String) : WatchItem → News
  | .event (.deleted pod) => if pod.metadata.name = some name then .gone else .hint
  | .event (.added _) => .hint
  | .event (.modified _) => .hint
  | .event (.error _) => .silence
  | .failed _ => .silence
  | .ended => .silence

/-- How a lookup goes: `latency` is how long it takes, and `absent` tells whether an answer at a
time says that there is no Pod. -/
structure Lookup where
  latency : Nat
  absent : Nat → Bool

/-- How a wait ends and at what `time`, how many items were `read`, and which `lookups` were made:
when, and when the answer is due. -/
structure Ending where
  signal : Signal
  time : Nat
  read : Nat := 0
  lookups : List (Nat × Nat) := []
  deriving DecidableEq, Repr

namespace Ending

/-- The deadline ends the wait. -/
def timeout (deadline : Nat) : Ending where
  signal := .timedOut
  time := deadline

/-- The ending `e` after `read` items and the lookups `made`. -/
def after (read : Nat) (made : List (Nat × Nat)) (e : Ending) : Ending :=
  { e with read := read + e.read, lookups := made ++ e.lookups }

/-- The ending when an answer is `due`: it is cut off by the deadline, and unless it says that there
is no Pod the wait goes on to `rest`. -/
def ofAnswer (deadline due : Nat) (absent : Bool) (rest : Ending) : Ending :=
  if deadline ≤ due then timeout deadline
  else if absent then { signal := .probedAbsent, time := due }
  else rest

/-- The ending when the lookup `l` is made; the wait may go on from its answer to `rest`. -/
def ofLookup (deadline now : Nat) (l : Lookup) (rest : Nat → Ending) : Ending :=
  let due := now + l.latency
  (ofAnswer deadline due (l.absent due) (rest due)).after 0 [(now, due)]

theorem after_after (m n : Nat) (made made' : List (Nat × Nat)) (e : Ending) :
    (e.after n made').after m made = e.after (m + n) (made ++ made') := by
  simp [after, Nat.add_assoc]

@[simp] theorem after_zero (e : Ending) : e.after 0 [] = e := by
  simp [after]

end Ending

/-- `awaitRemoval name deadline lookups now items` is how a wait for the removal of the Pod `name`
ends that goes on at `now`: `lookups` says how the lookups go that it may make, and `items` what its
watch delivers, with the time from which each can be read. An item is taken no earlier than that,
and not before the last one was dealt with. -/
def awaitRemoval (name : String) (deadline : Nat) :
    (Nat → Lookup) → Nat → List (Nat × WatchItem) → Ending
  | _, _, [] => .timeout deadline
  | lookups, now, (due, item) :: items =>
    let taken := max now due
    if deadline ≤ taken then .timeout deadline
    else
      match item.news name with
      | .gone => { signal := .deletedEvent, time := taken, read := 1 }
      | .silence => (Ending.timeout deadline).after 1 []
      | .hint =>
        (Ending.ofLookup deadline taken (lookups 0) fun back =>
          awaitRemoval name deadline (fun k => lookups (k + 1)) back items).after 1 []

section

variable {name : String} {deadline now time : Nat} {lookups lookups' : Nat → Lookup}
  {items : List (Nat × WatchItem)}

theorem awaitRemoval_of_le (h : deadline ≤ now) :
    awaitRemoval name deadline lookups now items = .timeout deadline := by
  cases items with
  | nil => rfl
  | cons entry items =>
    have hlate : deadline ≤ max now entry.1 := Nat.le_trans h (Nat.le_max_left _ _)
    simp [awaitRemoval, hlate]

/-- `awaitRemoval` does not depend on the clock while there is nothing to read. -/
theorem awaitRemoval_wait (hle : now ≤ time)
    (hitems : ∀ entry, items.head? = some entry → time ≤ max now entry.1) :
    awaitRemoval name deadline lookups time items =
      awaitRemoval name deadline lookups now items := by
  cases items with
  | nil => rfl
  | cons entry items =>
    have htaken : max time entry.1 = max now entry.1 := by
      have := hitems entry rfl
      omega
    simp only [awaitRemoval, htaken]

/-- `awaitRemoval` depends only on the lookups from now on. -/
theorem awaitRemoval_congr
    (h : ∀ k t, now ≤ t → (lookups' k).latency = (lookups k).latency ∧
      (lookups' k).absent t = (lookups k).absent t) :
    awaitRemoval name deadline lookups' now items =
      awaitRemoval name deadline lookups now items := by
  -- The time from which a wait goes on only grows, so what is known about the lookups from now on
  -- covers those of the rest.
  induction items generalizing lookups lookups' now with
  | nil => rfl
  | cons entry items ih =>
    have hle : now ≤ max now entry.1 := Nat.le_max_left _ _
    have hlatency := (h 0 _ hle).1
    simp only [awaitRemoval, Ending.ofLookup, hlatency]
    rw [(h 0 _ (Nat.le_trans hle (Nat.le_add_right _ (lookups 0).latency))).2,
      ih fun k t ht => h (k + 1) t (by omega)]

/-- `awaitRemoval` ends between now and its deadline, and exactly at the deadline when nothing else
ends it. -/
theorem awaitRemoval_time (h : now ≤ deadline) :
    now ≤ (awaitRemoval name deadline lookups now items).time ∧
      (awaitRemoval name deadline lookups now items).time ≤ deadline ∧
      ((awaitRemoval name deadline lookups now items).signal = .timedOut ↔
        (awaitRemoval name deadline lookups now items).time = deadline) := by
  -- Wherever a wait ends, it has timed out at the deadline or ended earlier in another way.
  have hlate : ∀ {e : Ending}, e.signal = .timedOut → e.time = deadline →
      (e.signal = .timedOut ↔ e.time = deadline) :=
    fun hsignal htime => ⟨fun _ => htime, fun _ => hsignal⟩
  have hearly : ∀ {e : Ending}, e.signal ≠ .timedOut → e.time < deadline →
      (e.signal = .timedOut ↔ e.time = deadline) :=
    fun hsignal htime =>
      ⟨fun heq => absurd heq hsignal, fun heq => absurd heq (Nat.ne_of_lt htime)⟩
  induction items generalizing lookups now with
  | nil => exact ⟨h, Nat.le_refl _, hlate rfl rfl⟩
  | cons entry items ih =>
    have hnow : now ≤ max now entry.1 := Nat.le_max_left _ _
    simp only [awaitRemoval]
    split
    · exact ⟨h, Nat.le_refl _, hlate rfl rfl⟩
    · rename_i htaken
      have htaken := Nat.lt_of_not_le htaken
      cases entry.2.news name with
      | gone => exact ⟨hnow, Nat.le_of_lt htaken, hearly (by simp) htaken⟩
      | silence => exact ⟨h, Nat.le_refl _, hlate rfl rfl⟩
      -- The answer is cut off, says that there is no Pod, or lets the wait go on from the time at
      -- which it comes.
      | hint =>
        simp only [Ending.ofLookup, Ending.ofAnswer, Ending.after]
        split
        · exact ⟨h, Nat.le_refl _, hlate rfl rfl⟩
        · rename_i hback
          have hback := Nat.lt_of_not_le hback
          have hlookup : now ≤ max now entry.1 + (lookups 0).latency :=
            Nat.le_trans hnow (Nat.le_add_right _ _)
          split
          · exact ⟨hlookup, Nat.le_of_lt hback, hearly (by simp) hback⟩
          · exact ⟨Nat.le_trans hlookup (ih (Nat.le_of_lt hback)).1, (ih (Nat.le_of_lt hback)).2⟩

end

namespace Stage

/-- `Stage.onItem` goes by the meaning of an item. -/
theorem onItem_eq (p : Plan) (item : WatchItem) :
    onItem p item =
      match item.news p.key.name with
      | .gone => .recreate .deletedEvent
      | .hint => .probing
      | .silence => .waiting false := by
  cases item with
  | event e =>
    cases e with
    | deleted pod =>
      simp only [onItem, WatchItem.news]
      split <;> rfl
    | _ => rfl
  | _ => rfl

end Stage

end PodDesk
