import RealtimeNotify.Lib.Expiring
import Mathlib.Data.Option.Basic

/-!
# Leases

A key that is granted for a time, renewed while it is there and dropped is a
lease. What happened to it is a list of events, the latest first. Two readings of
such a list are proved to agree: the cell of an expiring store that the events
leave, and the condition that each renewal came in time.
-/

namespace RealtimeNotify.Lib

structure Timed (α : Type*) where
  time : Nat
  what : α

/-- The times do not go down, and have not passed `now`. -/
def InOrder {α : Type*} : List (Timed α) → Nat → Prop
  | [], _ => True
  | e :: before, now => e.time ≤ now ∧ InOrder before e.time

theorem InOrder.mono {α : Type*} {h : List (Timed α)} {now later : Nat} (ho : InOrder h now)
    (hle : now ≤ later) : InOrder h later := by
  cases h with
  | nil => trivial
  | cons e before => exact ⟨Nat.le_trans ho.1 hle, ho.2⟩

theorem InOrder.le {α : Type*} {h : List (Timed α)} {now : Nat} (ho : InOrder h now)
    {e : Timed α} (he : e ∈ h) : e.time ≤ now := by
  induction h generalizing now with
  | nil => cases he
  | cons e' before ih =>
    rcases List.mem_cons.mp he with rfl | he
    · exact ho.1
    · exact Nat.le_trans (ih ho.2 he) ho.1

inductive LeaseEvent (ν : Type*) where
  | grant (v : ν)
  | renew
  | drop

namespace LeaseEvent

variable {ν : Type*}

/-- The holder was there. -/
def beats : LeaseEvent ν → Bool
  | grant _ | renew => true
  | drop => false

/-- What an event at `t` makes of the cell. -/
def apply (ttl t : Nat) : LeaseEvent ν → Option (Cell ν) → Option (Cell ν)
  | grant v, _ => some ⟨v, some (t + ttl)⟩
  | renew, c => c.map fun c => if c.live t then ⟨c.value, some (t + ttl)⟩ else c
  | drop, _ => none

end LeaseEvent

section Store

variable {κ ν : Type*} [DecidableEq κ] {s : Store κ ν} {k : κ} {t ttl : Nat}

/-- A new deadline for a key is the renewal of its cell. -/
theorem Store.extend_renew :
    s.extend t k (t + ttl) k = LeaseEvent.renew.apply ttl t (s k) := by
  cases hs : s k with
  | none => simp [extend, cell, LeaseEvent.apply, hs]
  | some c =>
    by_cases hl : c.live t = true <;>
      simp [extend, cell, LeaseEvent.apply, hs, hl, Option.filter]

end Store

/-! ## Histories of a lease -/

section History

variable {ν : Type*}

abbrev LeaseHistory (ν : Type*) := List (Timed (LeaseEvent ν))

namespace LeaseHistory

/-- The cell that is left. -/
def cell (ttl : Nat) : LeaseHistory ν → Option (Cell ν)
  | [] => none
  | e :: before => e.what.apply ttl e.time (cell ttl before)

/-- `v` was granted, and every renewal since, and `now`, came within the time of
the beat before it. -/
def Held (ttl : Nat) (v : ν) : LeaseHistory ν → Nat → Prop
  | [], _ => False
  | ⟨t, .grant v'⟩ :: _, now => v' = v ∧ now < t + ttl
  | ⟨t, .renew⟩ :: before, now => Held ttl v before t ∧ now < t + ttl
  | ⟨_, .drop⟩ :: _, _ => False

/-- What the latest event but renewals was. -/
def lastMark : LeaseHistory ν → Option (Option ν)
  | [] => none
  | ⟨_, .grant v⟩ :: _ => some (some v)
  | ⟨_, .renew⟩ :: before => lastMark before
  | ⟨_, .drop⟩ :: _ => some none

/-- When the holder was there last. -/
def lastBeat : LeaseHistory ν → Option Nat
  | [] => none
  | ⟨t, .grant _⟩ :: _ | ⟨t, .renew⟩ :: _ => some t
  | ⟨_, .drop⟩ :: before => lastBeat before

/-- Every renewal since the last mark came within the time of the beat before it. -/
def Paced (ttl : Nat) : LeaseHistory ν → Prop
  | ⟨t, .renew⟩ :: before => (∀ t', lastBeat before = some t' → t < t' + ttl) ∧ Paced ttl before
  | [] | ⟨_, .grant _⟩ :: _ | ⟨_, .drop⟩ :: _ => True

variable {h : LeaseHistory ν} {ttl now : Nat} {v : ν}

/-- The value of the cell can be read while the lease is held. -/
theorem cell_live_iff (ho : InOrder h now) :
    ((cell ttl h).filter (·.live now)).map (·.value) = some v ↔ Held ttl v h now := by
  induction h generalizing now with
  | nil => simp [cell, Held]
  | cons e before ih =>
    obtain ⟨t, e⟩ := e
    obtain ⟨hle, ho⟩ := ho
    cases e with
    | grant v' =>
      by_cases hlt : now < t + ttl <;>
        simp [cell, Held, LeaseEvent.apply, Option.filter, Cell.live_deadline, hlt]
    | renew =>
      rw [Held, ← ih ho]
      cases hc : cell ttl before with
      | none => simp [cell, LeaseEvent.apply, hc]
      | some c =>
        by_cases hl : c.live t = true
        · by_cases hlt : now < t + ttl <;>
            simp [cell, LeaseEvent.apply, hc, hl, Option.filter, Cell.live_deadline, hlt]
        · -- a cell that had expired at `t` is left as it is
          have hnow : ¬ c.live now = true := fun hn => hl (Store.live_mono hle hn)
          have hleft : cell ttl (⟨t, .renew⟩ :: before) = some c := by
            simp [cell, LeaseEvent.apply, hc, hl]
          simp [hleft, Option.filter, hl, hnow]
    | drop => simp [cell, Held, LeaseEvent.apply]

theorem lastBeat_of_mark (hm : lastMark h = some (some v)) : ∃ t, lastBeat h = some t := by
  induction h with
  | nil => cases hm
  | cons e before ih =>
    obtain ⟨t, e⟩ := e
    cases e with
    | grant _ | renew => exact ⟨t, rfl⟩
    | drop => cases hm

/-- A lease is held where it was granted last, a beat is recent, and the renewals
came in time. -/
theorem held_iff : Held ttl v h now ↔ lastMark h = some (some v) ∧
    (∃ t, lastBeat h = some t ∧ now < t + ttl) ∧ Paced ttl h := by
  induction h generalizing now with
  | nil => simp [Held, lastMark]
  | cons e before ih =>
    obtain ⟨t, e⟩ := e
    cases e with
    | grant v' => simp [Held, lastMark, lastBeat, Paced]
    | drop => simp [Held, lastMark]
    | renew =>
      rw [Held, ih, lastMark, lastBeat, Paced]
      constructor
      · rintro ⟨⟨hm, ⟨t', ht', hlt⟩, hp⟩, hnow⟩
        refine ⟨hm, ⟨t, rfl, hnow⟩, fun t'' ht'' => ?_, hp⟩
        obtain rfl := Option.some.inj (ht'.symm.trans ht'')
        exact hlt
      · rintro ⟨hm, ⟨t', ht', hnow⟩, hbeat, hp⟩
        obtain rfl := Option.some.inj ht'
        obtain ⟨t', ht'⟩ := lastBeat_of_mark hm
        exact ⟨⟨hm, ⟨t', ht', hbeat t' ht'⟩, hp⟩, hnow⟩

theorem mem_of_lastBeat {t : Nat} (hb : lastBeat h = some t) :
    ∃ e ∈ h, e.what.beats = true ∧ e.time = t := by
  induction h with
  | nil => cases hb
  | cons e before ih =>
    obtain ⟨t', e⟩ := e
    cases e with
    | grant _ | renew => exact ⟨_, List.mem_cons_self, rfl, Option.some.inj hb⟩
    | drop =>
      obtain ⟨e, he, hbeats, ht⟩ := ih hb
      exact ⟨e, List.mem_cons_of_mem _ he, hbeats, ht⟩

/-- No beat is later than the last one. -/
theorem le_lastBeat (ho : InOrder h now) {e : Timed (LeaseEvent ν)} (he : e ∈ h)
    (hbeats : e.what.beats = true) : ∃ t, lastBeat h = some t ∧ e.time ≤ t := by
  induction h generalizing now with
  | nil => cases he
  | cons e' before ih =>
    obtain ⟨t', e'⟩ := e'
    cases e' with
    | grant _ | renew =>
      refine ⟨t', rfl, ?_⟩
      rcases List.mem_cons.mp he with rfl | he
      · exact Nat.le_refl _
      · exact ho.2.le he
    | drop =>
      rcases List.mem_cons.mp he with rfl | he
      · cases hbeats
      · exact ih ho.2 he

theorem recent_iff (ho : InOrder h now) : (∃ t, lastBeat h = some t ∧ now < t + ttl) ↔
    ∃ e ∈ h, e.what.beats = true ∧ now < e.time + ttl := by
  constructor
  · rintro ⟨t, ht, hlt⟩
    obtain ⟨e, he, hbeats, rfl⟩ := mem_of_lastBeat ht
    exact ⟨e, he, hbeats, hlt⟩
  · rintro ⟨e, he, hbeats, hlt⟩
    obtain ⟨t, ht, hle⟩ := le_lastBeat ho he hbeats
    exact ⟨t, ht, by omega⟩

end LeaseHistory

end History

/-! ## Beats that may fail

A holder beats once a cycle. A beat grants `ttl` from then on; one that fails may
have had that effect or none.
-/

/-- When the last beat was answered, and whether it failed. -/
structure Beat where
  time : Nat
  failed : Bool

/-- The last beat is at most a cycle old, and the deadline was set by it, or, if it
failed, by one no more than a cycle earlier. -/
structure Beat.Covers (ttl cycle : Nat) (b : Beat) (deadline now : Nat) : Prop where
  past : b.time ≤ now
  recent : now ≤ b.time + cycle
  granted : b.time + ttl ≤ deadline + if b.failed then cycle else 0

namespace Beat.Covers

variable {ttl cycle deadline now : Nat} {b : Beat}

/-- Two cycles within the time of a grant leave room for one failure. -/
theorem now_lt (h : b.Covers ttl cycle deadline now) (hcycle : 2 * cycle < ttl) :
    now < deadline := by
  have hrecent := h.recent
  have hgranted := h.granted
  split at hgranted <;> omega

theorem elapse (h : b.Covers ttl cycle deadline now) {d : Nat}
    (hd : now + d ≤ b.time + cycle) : b.Covers ttl cycle deadline (now + d) where
  past := Nat.le_add_right_of_le h.past
  recent := hd
  granted := h.granted

/-- A beat that took effect, whether or not its holder knows. -/
theorem grant {failed : Bool} : Covers ttl cycle ⟨now, failed⟩ (now + ttl) now where
  past := Nat.le_refl _
  recent := Nat.le_add_right _ _
  granted := Nat.le_add_right _ _

/-- A beat that was lost, after one that was not. -/
theorem miss (h : b.Covers ttl cycle deadline now) (hb : b.failed = false) :
    Covers ttl cycle ⟨now, true⟩ deadline now where
  past := Nat.le_refl _
  recent := Nat.le_add_right _ _
  granted := by
    have hrecent := h.recent
    have hgranted := h.granted
    rw [hb, if_neg Bool.false_ne_true] at hgranted
    show now + ttl ≤ deadline + cycle
    omega

end Beat.Covers

end RealtimeNotify.Lib
