import Croniq.CroniqfileSyntax
import Mathlib.Data.List.Induction

/-!
# The live console

The ring of recent events, the startup log beside it, and the backfill a new
connection gets of both.
-/

namespace Croniq

open List

def ringCapacity : Nat := 1000

def startupCapacity : Nat := 500

def redactedTargets : List String :=
  ["croniq::password_reset","croniq::email","croniq::oidc","croniq::invitations"]

def secretFieldMarkers : List String :=
  ["token","secret","password","credential","api_key","apikey","authorization","confirm_url",
    "accept_url","webhook_url"]

def targetIsRedacted (target : String) : Bool :=
  redactedTargets.any fun redacted =>
    (target.toList.dropPrefix? redacted.toList).any fun rest =>
      rest.isEmpty || "::".toList.isPrefixOf rest

def fieldIsSecret (name : String) : Bool :=
  secretFieldMarkers.any fun marker =>
    (Config.toAsciiLowercase name).toList.tails.any marker.toList.isPrefixOf

inductive FieldValue
  | string (text : String)
  | bool (value : Bool)
  | integer (value : Int)
  | float (value : Float)

structure ConsoleEvent where
  ts : Int
  (level target message : String)
  fields : List (String × FieldValue)
  startup : Bool

def ConsoleEvent.masked (event : ConsoleEvent) : ConsoleEvent where
  __ := event
  fields := event.fields.map fun (name, value) =>
    (name, if fieldIsSecret name then .string "[redacted]" else value)

/-- What `push` keeps of an event before it takes the lock. -/
def redact (event : ConsoleEvent) : Option ConsoleEvent :=
  if targetIsRedacted event.target then none else some event.masked

structure Buffers where
  ring : List ConsoleEvent := []
  pushed : Nat := 0
  startup : List ConsoleEvent := []
  startupOpen : Bool := true
  startupUnpinned : Nat := 0
  startupNote : Option ConsoleEvent := none

namespace Buffers

variable (buffers : Buffers)

def push (event : ConsoleEvent) : Buffers :=
  match redact event with
  | none => buffers
  | some event =>
    let event := if buffers.startupOpen then { event with startup := true } else event
    let isPinned := buffers.startup.length < startupCapacity
    { buffers with
      startup := buffers.startup ++ if buffers.startupOpen ∧ isPinned then [event] else []
      startupUnpinned := buffers.startupUnpinned + if buffers.startupOpen ∧ ¬isPinned then 1 else 0
      ring := (if ringCapacity ≤ buffers.ring.length then buffers.ring.tail else buffers.ring) ++
        [event]
      pushed := buffers.pushed + 1 }

def sealStartup (now : Int) : Buffers :=
  if !buffers.startupOpen then buffers
  else if 0 < buffers.startupUnpinned then
    { buffers with
      startupOpen := false
      startupNote := some
        { ts := now, level := "warn", target := "croniq_server::live_console"
          message := "startup log truncated; the rest is in the regular backfill while the " ++
            "ring still holds it"
          fields := [("pinned", .integer startupCapacity),
            ("not_pinned", .integer buffers.startupUnpinned)]
          startup := true } }
  else { buffers with startupOpen := false }

structure Backfill where
  (startup recent : List ConsoleEvent)

def backfill (n : Nat) : Backfill :=
  let firstInRing := buffers.pushed - buffers.ring.length
  let tail := buffers.ring.drop (buffers.startup.length - firstInRing)
  { startup := buffers.startup ++ buffers.startupNote.toList
    recent := tail.drop (tail.length - n) }

end Buffers

inductive ConsoleCall
  | push (event : ConsoleEvent)
  | sealStartup (now : Int)

def Buffers.call (buffers : Buffers) : ConsoleCall → Buffers
  | .push event => buffers.push event
  | .sealStartup now => buffers.sealStartup now

/-- All the console was ever given: the events let through, and those that came before the startup
log was sealed. -/
structure ConsoleHistory where
  events : List ConsoleEvent := []
  early : List ConsoleEvent := []
  isSealed : Bool := false

def ConsoleHistory.call (history : ConsoleHistory) : ConsoleCall → ConsoleHistory
  | .sealStartup _ => { history with isSealed := true }
  | .push event =>
    if targetIsRedacted event.target then history
    else if history.isSealed then { history with events := history.events ++ [event.masked] }
    else
      { history with
        events := history.events ++ [{ event.masked with startup := true }]
        early := history.early ++ [{ event.masked with startup := true }] }

/-- The buffers hold what the bounds leave of the history. -/
structure Buffers.Holds (buffers : Buffers) (history : ConsoleHistory) : Prop where
  ring : buffers.ring = history.events.drop (history.events.length - ringCapacity)
  pushed : buffers.pushed = history.events.length
  startup : buffers.startup = history.early.take startupCapacity
  isOpen : buffers.startupOpen = !history.isSealed
  early : history.early <+: history.events
  unsealed : history.isSealed = false → history.early = history.events

variable {buffers : Buffers} {history : ConsoleHistory}

theorem ring_append (events : List ConsoleEvent) (event : ConsoleEvent) :
    let ring := events.drop (events.length - ringCapacity)
    (if ringCapacity ≤ ring.length then ring.tail else ring) ++ [event] =
      (events ++ [event]).drop ((events ++ [event]).length - ringCapacity) := by
  intro ring
  have length : ring.length = events.length - (events.length - ringCapacity) := length_drop
  have positive : 0 < ringCapacity := by decide
  rcases lt_or_ge events.length ringCapacity with short | full
  · simp [ring,Nat.sub_eq_zero_of_le short.le,Nat.sub_eq_zero_of_le short,short]
  · rw [length_append,length_singleton,drop_append_of_le_length (by omega),if_pos (by omega),
      tail_drop,Nat.sub_add_comm full]

theorem startup_append (early : List ConsoleEvent) (event : ConsoleEvent) :
    (early.take startupCapacity ++
      if (early.take startupCapacity).length < startupCapacity then [event] else []) =
      (early ++ [event]).take startupCapacity := by
  rw [take_append,length_take]
  split
  · rw [take_of_length_le (l := [event]) (by simp; omega)]
  · rw [show startupCapacity - early.length = 0 by omega,take_zero]

theorem Buffers.Holds.call (holds : buffers.Holds history) (what : ConsoleCall) :
    (buffers.call what).Holds (history.call what) := by
  cases what with
  | sealStartup now =>
    simp only [Buffers.call,Buffers.sealStartup,ConsoleHistory.call]
    have isOpen := holds.isOpen
    split
    · exact { holds with isOpen := by simp_all, unsealed := by rintro ⟨⟩ }
    split
    · exact { holds with isOpen := rfl, unsealed := by rintro ⟨⟩ }
    · exact { holds with isOpen := rfl, unsealed := by rintro ⟨⟩ }
  | push event =>
    simp only [Buffers.call,Buffers.push,redact,ConsoleHistory.call,holds.ring,holds.pushed,
      holds.startup,holds.isOpen]
    cases targetIsRedacted event.target with
    | true => exact holds
    | false =>
      cases isSealed : history.isSealed with
      | false =>
        have early := holds.unsealed isSealed
        refine ⟨ring_append _ _,by simp,?_,by simp,by simp [early],by simp [early]⟩
        simpa using startup_append history.early { event.masked with startup := true }
      | true =>
        refine ⟨ring_append _ _,by simp,by simp,by simp,?_,by simp⟩
        exact holds.early.trans (prefix_append _ _)

theorem Buffers.Holds.pinned (holds : buffers.Holds history) :
    history.early.take startupCapacity <+: history.events :=
  .trans ⟨_,take_append_drop _ _⟩ holds.early

theorem holds_of_calls (calls : List ConsoleCall) (holds : buffers.Holds history) :
    (calls.foldl Buffers.call buffers).Holds (calls.foldl ConsoleHistory.call history) := by
  induction calls generalizing buffers history with
  | nil => exact holds
  | cons what calls ih => exact ih (holds.call what)

/-- The backfill pins the first events before the seal, and adds the newest of the others still in
the ring. -/
theorem backfill_exact (calls : List ConsoleCall) (n : Nat) :
    let buffers := calls.foldl Buffers.call {}
    let history := calls.foldl ConsoleHistory.call {}
    let pinned := history.early.take startupCapacity
    let kept := history.events.length - ringCapacity
    (buffers.backfill n).startup = pinned ++ buffers.startupNote.toList ∧
      pinned <+: history.events ∧ buffers.ring = history.events.drop kept ∧
      (buffers.backfill n).recent =
        history.events.drop (max (history.events.length - n) (max kept pinned.length)) := by
  intro buffers history pinned kept
  have holds : buffers.Holds history := holds_of_calls calls ⟨rfl,rfl,rfl,rfl,⟨_,rfl⟩,fun _ => rfl⟩
  have isPrefix : pinned <+: history.events := holds.pinned
  refine ⟨congrArg (· ++ _) holds.startup,isPrefix,holds.ring,?_⟩
  have startup : buffers.startup = pinned := holds.startup
  have ring : buffers.ring = history.events.drop kept := holds.ring
  have within := isPrefix.length_le
  simp only [Buffers.backfill,ring,startup,holds.pushed,drop_drop,length_drop]
  congr 1
  omega

/-- A new connection gets every event once, in order, exactly if those not pinned fit into the ring
and into what it asks for. -/
theorem backfill_complete_iff (calls : List ConsoleCall) (n : Nat) :
    let buffers := calls.foldl Buffers.call {}
    let history := calls.foldl ConsoleHistory.call {}
    buffers.startup ++ (buffers.backfill n).recent = history.events ↔
      history.events.length ≤ buffers.startup.length + min n ringCapacity := by
  intro buffers history
  have holds : buffers.Holds history := holds_of_calls calls ⟨rfl,rfl,rfl,rfl,⟨_,rfl⟩,fun _ => rfl⟩
  obtain ⟨rest,events⟩ : buffers.startup <+: history.events := holds.startup ▸ holds.pinned
  simp only [Buffers.backfill,holds.ring,holds.pushed,← events,drop_drop,length_drop,
    length_append,append_cancel_left_eq]
  constructor
  · intro complete
    have lengths := congrArg length complete
    simp only [length_drop,length_append] at lengths
    omega
  · intro fits
    refine (congrArg (drop · _) ?_).trans drop_left
    omega

structure ConsoleEvent.Redacted (event : ConsoleEvent) : Prop where
  target : targetIsRedacted event.target = false
  fields : ∀ field ∈ event.fields, fieldIsSecret field.1 = true → field.2 = .string "[redacted]"

theorem redacted_of_redact {event kept : ConsoleEvent} (keeps : redact event = some kept) :
    kept.Redacted := by
  unfold redact at keeps
  split at keeps
  · cases keeps
  · rename_i notDropped
    cases keeps
    refine ⟨by simpa [ConsoleEvent.masked] using notDropped,fun field member secret => ?_⟩
    obtain ⟨original,_,rfl⟩ := mem_map.mp member
    exact if_pos secret

def Buffers.held (buffers : Buffers) : List ConsoleEvent :=
  buffers.ring ++ buffers.startup ++ buffers.startupNote.toList

theorem held_call (what : ConsoleCall) {event : ConsoleEvent}
    (member : event ∈ (buffers.call what).held) : event ∈ buffers.held ∨ event.Redacted := by
  cases what with
  | sealStartup now =>
    simp only [Buffers.call,Buffers.sealStartup] at member
    split at member
    · exact .inl member
    split at member
    · rcases mem_append.mp member with old | isNote
      · exact .inl (mem_append_left _ old)
      · cases mem_singleton.mp isNote
        have shown : targetIsRedacted "croniq_server::live_console" = false := by decide
        exact .inr ⟨shown,by simp; decide⟩
    · exact .inl member
  | push pushed =>
    simp only [Buffers.call,Buffers.push] at member
    split at member
    · exact .inl member
    · rename_i kept keeps
      have redacted := redacted_of_redact keeps
      have marked : { kept with startup := true }.Redacted := ⟨redacted.1,redacted.2⟩
      have := @mem_of_mem_tail _ event buffers.ring
      simp only [Buffers.held] at *
      grind

/-- No event shown is on a secret target or has the value of a secret field. -/
theorem console_shows_no_secret (calls : List ConsoleCall) (n : Nat) :
    let buffers := calls.foldl Buffers.call {}
    ∀ event ∈ (buffers.backfill n).startup ++ (buffers.backfill n).recent, event.Redacted := by
  intro buffers event member
  have isHeld : event ∈ buffers.held := by
    have := @mem_of_mem_drop _ event
    grind [Buffers.held,Buffers.backfill]
  subst buffers
  clear member
  induction calls using reverseRecOn with
  | nil => cases isHeld
  | append_singleton calls what ih =>
    rw [foldl_append] at isHeld
    exact (held_call what isHeld).elim ih id

end Croniq
