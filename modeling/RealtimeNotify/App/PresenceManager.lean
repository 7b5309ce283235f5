import RealtimeNotify.App.Gateway
import RealtimeNotify.Lib.Lease
import RealtimeNotify.Lib.Machine

/-!
# `PresenceManager`

Each method sends its commands at one instant. The machine has the clock, the
store and the calls so far, the latest first; the calls for one user are the
history of a lease on its presence key, and the latest beat is what its
`last_seen` key has.
-/

namespace RealtimeNotify.App

open RealtimeNotify.Lib RealtimeNotify.Python

/-! ## The methods -/

inductive PresenceStatus where
  | online
  | away
  | offline
  deriving DecidableEq

/-- `status.value`. -/
def PresenceStatus.value : PresenceStatus → String
  | online => "online"
  | away => "away"
  | offline => "offline"

/-- `PresenceStatus(value)`; `none` is the `ValueError`. -/
def PresenceStatus.ofValue (value : String) : Option PresenceStatus :=
  [online, away, offline].find? (·.value = value)

structure PresenceInfo where
  userId : String
  status : PresenceStatus
  lastSeen : Option Nat

/-- `datetime.fromisoformat(raw)`; what is no stamp is a status text, and no date. -/
def fromisoformat : RedisValue → Option Nat
  | .stamp t => some t
  | .text _ | .count _ => none

inductive PresenceCall where
  | markOnline
  | markAway
  | heartbeat
  | markOffline
  deriving DecidableEq

namespace PresenceManager

/-- `get`; `none` says that it raises. -/
def get (r : Redis) (now : Nat) (userId : String) : Option PresenceInfo :=
  (PresenceStatus.ofValue (r.getStatus now userId)).bind fun status =>
    match r.getLastSeen now userId with
    | none => some ⟨userId, status, none⟩
    | some value => (fromisoformat value).map fun t => ⟨userId, status, some t⟩

/-- What the other methods send. -/
def commands (ttl : Nat) (userId : String) : PresenceCall → List RedisCmd
  | .markOnline => [PresenceStore.setOnline userId ttl, PresenceStore.touchLastSeen userId]
  | .markAway => [PresenceStore.setAway userId ttl, PresenceStore.touchLastSeen userId]
  | .heartbeat => [PresenceStore.refresh userId ttl, PresenceStore.touchLastSeen userId]
  | .markOffline => [PresenceStore.clear userId]

end PresenceManager

/-- The points of a handler at which a method is awaited send its commands. -/
theorem GatewayPc.awaits_commands (env : Env) (n : Nat) (i c u : String) :
    [markOnline u, onlineSeen u].map (fun pc => (pc.next env n i c).op?)
      = (PresenceManager.commands env.presenceTtlSeconds u .markOnline).map (some <| .redis ·) ∧
    [presence u true, presenceSeen u].map (fun pc => (pc.next env n i c).op?)
      = (PresenceManager.commands env.presenceTtlSeconds u .markOnline).map (some <| .redis ·) ∧
    [presence u false, presenceSeen u].map (fun pc => (pc.next env n i c).op?)
      = (PresenceManager.commands env.presenceTtlSeconds u .markAway).map (some <| .redis ·) ∧
    [heartbeat u, heartbeatSeen u].map (fun pc => (pc.next env n i c).op?)
      = (PresenceManager.commands env.presenceTtlSeconds u .heartbeat).map (some <| .redis ·) ∧
    [markOffline u].map (fun pc => (pc.next env n i c).op?)
      = (PresenceManager.commands env.presenceTtlSeconds u .markOffline).map (some <| .redis ·) :=
  ⟨rfl, rfl, rfl, rfl, rfl⟩

/-! ## Calls over time -/

/-- The commands one after the other; `none` when one of them is an error. -/
def RedisCmd.execAll (now : Nat) : List RedisCmd → Redis → Option Redis
  | [], r => some r
  | c :: cs, r => (c.exec r now).bind fun p => execAll now cs p.1

structure PresenceEvent where
  userId : String
  call : PresenceCall

structure PresenceWorld where
  now : Nat
  redis : Redis
  calls : List (Timed PresenceEvent)

inductive PresenceAction where
  | tick (microseconds : Nat)
  | call (userId : String) (call : PresenceCall)

def PresenceWorld.step (ttl : Nat) (w : PresenceWorld) : PresenceAction → Option PresenceWorld
  | .tick d => some { w with now := w.now + d }
  | .call userId call =>
      (RedisCmd.execAll w.now (PresenceManager.commands ttl userId call) w.redis).map fun redis =>
        { w with redis, calls := ⟨w.now, userId, call⟩ :: w.calls }

/-- Time passes, or the commands of a call are executed. -/
theorem PresenceWorld.step_cases {ttl : Nat} {w w' : PresenceWorld} {a : PresenceAction}
    (h : w.step ttl a = some w') :
    (∃ d, a = .tick d ∧ w' = { w with now := w.now + d }) ∨
    ∃ v call redis, a = .call v call ∧
      RedisCmd.execAll w.now (PresenceManager.commands ttl v call) w.redis = some redis ∧
      w' = { w with redis, calls := ⟨w.now, v, call⟩ :: w.calls } := by
  cases a with
  | tick d => exact .inl ⟨d, rfl, (Option.some.inj h).symm⟩
  | call v call =>
    obtain ⟨redis, hx, rfl⟩ := Option.map_eq_some_iff.mp h
    exact .inr ⟨v, call, redis, rfl, hx, rfl⟩

/-- Any calls of any users at any times. -/
def presenceMachine (ttl : Nat) : Machine PresenceWorld PresenceAction where
  init := ⟨0, fun _ => none, []⟩
  step := PresenceWorld.step ttl

namespace PresenceCall

/-- `mark_online`, `mark_away`, `mark_offline`. -/
def marks : PresenceCall → Bool
  | markOnline | markAway | markOffline => true
  | heartbeat => false

/-- `mark_online`, `mark_away`, `heartbeat`. -/
def beats : PresenceCall → Bool
  | markOnline | markAway | heartbeat => true
  | markOffline => false

/-- What a call is for the presence key. -/
def lease : PresenceCall → LeaseEvent PresenceStatus
  | markOnline => .grant .online
  | markAway => .grant .away
  | heartbeat => .renew
  | markOffline => .drop

end PresenceCall

/-- The most recent `mark_*` call for a user. -/
def lastMark (u : String) (calls : List (Timed PresenceEvent)) : Option PresenceCall :=
  (calls.find? fun e => e.what.userId = u && e.what.call.marks).map (·.what.call)

/-- The time of the most recent `mark_online`, `mark_away` or `heartbeat` for a user. -/
def lastBeat (u : String) (calls : List (Timed PresenceEvent)) : Option Nat :=
  (calls.find? fun e => e.what.userId = u && e.what.call.beats).map (·.time)

/-- One of them was less than `ttl` seconds ago. -/
def beatRecently (ttl : Nat) (u : String) (w : PresenceWorld) : Prop :=
  ∃ e ∈ w.calls, e.what.userId = u ∧ e.what.call.beats = true ∧ w.now < e.time + seconds ttl

/-- The calls for a user as a history of its presence key. -/
def leaseHistory (u : String) (calls : List (Timed PresenceEvent)) : LeaseHistory PresenceStatus :=
  calls.filterMap fun e => if e.what.userId = u then some ⟨e.time, e.what.call.lease⟩ else none

variable {ttl now t : Nat} {u v : String} {w w' : PresenceWorld} {r r' : Redis}
  {calls : List (Timed PresenceEvent)}

/-! ## The history of a user -/

theorem leaseHistory_cons (e : Timed PresenceEvent) : leaseHistory u (e :: calls) =
    if e.what.userId = u then ⟨e.time, e.what.call.lease⟩ :: leaseHistory u calls
    else leaseHistory u calls := by
  by_cases hu : e.what.userId = u <;> simp [leaseHistory, hu]

/-- What the last mark granted. -/
def PresenceCall.status? : PresenceCall → Option PresenceStatus
  | markOnline => some .online
  | markAway => some .away
  | heartbeat | markOffline => none

theorem lastMark_leaseHistory :
    (leaseHistory u calls).lastMark = (lastMark u calls).map PresenceCall.status? := by
  induction calls with
  | nil => rfl
  | cons e calls ih =>
    obtain ⟨t, v, call⟩ := e
    rw [leaseHistory_cons]
    by_cases hu : v = u
    · cases call with
      | heartbeat => simpa [hu, PresenceCall.lease, LeaseHistory.lastMark, lastMark,
          PresenceCall.marks] using ih
      | _ => simp [hu, PresenceCall.lease, LeaseHistory.lastMark, lastMark, PresenceCall.marks,
          PresenceCall.status?]
    · simpa [hu, lastMark] using ih

/-! ## What the calls leave in the store -/

/-- A status as it is stored. -/
def storedStatus (c : Cell PresenceStatus) : Cell RedisValue := ⟨.text c.value.value, c.deadline⟩

@[simp] theorem storedStatus_live (c : Cell PresenceStatus) :
    (storedStatus c).live now = c.live now := rfl

theorem renew_storedStatus {ttl : Nat} {c : Option (Cell PresenceStatus)} :
    (LeaseEvent.renew.apply ttl t c).map storedStatus
      = LeaseEvent.renew.apply ttl t (c.map storedStatus) := by
  cases c with
  | none => rfl
  | some c =>
    by_cases hl : c.live t = true
    · simp only [LeaseEvent.apply, Option.map_some, storedStatus_live, hl, if_true]
      rfl
    · simp [LeaseEvent.apply, hl]

theorem RedisCmd.execAll_frame {cs : List RedisCmd} {k : String}
    (h : RedisCmd.execAll now cs r = some r') (hk : ∀ c ∈ cs, k ≠ c.key) : r' k = r k := by
  induction cs generalizing r with
  | nil =>
    obtain rfl := Option.some.inj h
    rfl
  | cons c cs ih =>
    obtain ⟨⟨r₁, reply⟩, hc, hrest⟩ := Option.bind_eq_some_iff.mp h
    calc r' k = r₁ k := ih hrest fun c' hc' => hk c' (List.mem_cons_of_mem _ hc')
      _ = r k := RedisCmd.exec_frame hc (hk c List.mem_cons_self)

theorem PresenceManager.commands_key {call : PresenceCall} {c : RedisCmd}
    (hc : c ∈ commands ttl u call) :
    c.key = presenceKey u ∨ c.key = lastSeenKey u ∧ call.beats = true := by
  cases call with
  | markOffline =>
    obtain rfl := List.mem_singleton.mp hc
    exact .inl rfl
  | _ =>
    obtain rfl | rfl := List.mem_pair.mp hc
    · exact .inl rfl
    · exact .inr ⟨rfl, rfl⟩

theorem presenceKey_ne_own_lastSeenKey (u : String) : presenceKey u ≠ lastSeenKey u := by
  intro h
  rw [lastSeenKey_eq, presenceKey_inj] at h
  have hlength := congrArg String.length h
  simp [String.length_append] at hlength

/-- A command on the presence key, then `_touch_last_seen`. -/
theorem PresenceStore.exec_touching {cmd : RedisCmd}
    (hx : RedisCmd.execAll now [cmd, PresenceStore.touchLastSeen u] r = some r') :
    ∃ r₁ reply, cmd.exec r now = some (r₁, reply) ∧
      r' (presenceKey u) = r₁ (presenceKey u) ∧
      r' (lastSeenKey u) = some ⟨.stamp now, none⟩ := by
  obtain ⟨⟨r₁, reply⟩, hcmd, hrest⟩ := Option.bind_eq_some_iff.mp hx
  obtain ⟨⟨r₂, _⟩, htouch, hrest⟩ := Option.bind_eq_some_iff.mp hrest
  obtain rfl := Option.some.inj hrest
  obtain rfl : r₁.put (lastSeenKey u) (.stamp now) none = r₂ :=
    congrArg Prod.fst (Option.some.inj htouch)
  exact ⟨r₁, reply, hcmd, Store.put_ne (presenceKey_ne_own_lastSeenKey u), Store.put_self⟩

/-- A call is the event of the lease, and a beat is noted. -/
theorem PresenceManager.commands_own {call : PresenceCall} {c : Option (Cell PresenceStatus)}
    (hx : RedisCmd.execAll now (commands ttl u call) r = some r')
    (hr : r (presenceKey u) = c.map storedStatus) :
    r' (presenceKey u) = (call.lease.apply (seconds ttl) now c).map storedStatus ∧
      r' (lastSeenKey u) = if call.beats then some ⟨.stamp now, none⟩ else r (lastSeenKey u) := by
  cases call with
  | markOnline | markAway =>
    obtain ⟨r₁, _, hcmd, hpresence, hseen⟩ := PresenceStore.exec_touching hx
    rw [RedisCmd.exec_set hcmd] at hpresence
    exact ⟨hpresence.trans Store.put_self, hseen⟩
  | heartbeat =>
    obtain ⟨r₁, _, hcmd, hpresence, hseen⟩ := PresenceStore.exec_touching hx
    refine ⟨hpresence.trans ?_, hseen⟩
    rw [RedisCmd.exec_expire hcmd, Store.extend_renew, hr]
    exact renew_storedStatus.symm
  | markOffline =>
    obtain ⟨⟨r₁, _⟩, hcmd, hrest⟩ := Option.bind_eq_some_iff.mp hx
    obtain rfl := Option.some.inj hrest
    obtain rfl : r.erase (presenceKey u) = r₁ := congrArg Prod.fst (Option.some.inj hcmd)
    exact ⟨Store.erase_self, Store.erase_ne (presenceKey_ne_own_lastSeenKey u).symm⟩

/-! ## The state after any calls -/

/-- The keys of the call are no keys of `u`, unless it is a call for `u`. -/
def PresenceEvent.apart (u : String) (e : PresenceEvent) : Prop :=
  presenceKey e.userId ≠ lastSeenKey u ∧
    (e.call.beats = true → lastSeenKey e.userId ≠ presenceKey u)

theorem PresenceEvent.apart_self (call : PresenceCall) : (PresenceEvent.mk u call).apart u :=
  ⟨presenceKey_ne_own_lastSeenKey u, fun _ => (presenceKey_ne_own_lastSeenKey u).symm⟩

theorem PresenceEvent.apart_of_uuid {e : PresenceEvent} (hu : (UUID.ofString u).isSome = true)
    (he : (UUID.ofString e.userId).isSome = true) : e.apart u :=
  ⟨presenceKey_ne_lastSeenKey he, fun _ => (presenceKey_ne_lastSeenKey hu).symm⟩

/-- What the keys of `u` have. -/
structure Tracks (ttl : Nat) (u : String) (w : PresenceWorld) : Prop where
  presence : w.redis (presenceKey u)
    = ((leaseHistory u w.calls).cell (seconds ttl)).map storedStatus
  lastSeen : w.redis (lastSeenKey u) = (lastBeat u w.calls).map fun t => ⟨.stamp t, none⟩

theorem lastBeat_cons {e : Timed PresenceEvent} : lastBeat u (e :: calls) =
    if e.what.userId = u ∧ e.what.call.beats = true then some e.time else lastBeat u calls := by
  by_cases h : e.what.userId = u ∧ e.what.call.beats = true <;> simp [lastBeat, h]

theorem Tracks.step {a : PresenceAction} (hw : Tracks ttl u w) (hstep : w.step ttl a = some w')
    (hapart : ∀ e ∈ w'.calls, e.what.apart u) : Tracks ttl u w' := by
  rcases PresenceWorld.step_cases hstep with ⟨d, -, rfl⟩ | ⟨v, call, redis, -, hx, rfl⟩
  · exact ⟨hw.presence, hw.lastSeen⟩
  · obtain ⟨hseen, hbeat⟩ := hapart _ List.mem_cons_self
    by_cases hv : v = u
    · subst hv
      obtain ⟨hp, hl⟩ := PresenceManager.commands_own hx hw.presence
      refine ⟨?_, ?_⟩
      · simpa [leaseHistory_cons, LeaseHistory.cell] using hp
      · rw [lastBeat_cons]
        cases hb : call.beats <;> simp [hb, hl, hw.lastSeen]
    · have hother : ∀ {k}, k ≠ presenceKey v → (call.beats = true → k ≠ lastSeenKey v) →
          redis k = w.redis k := by
        intro k hpresence hlast
        refine RedisCmd.execAll_frame hx fun c hc => ?_
        rcases PresenceManager.commands_key hc with hk | ⟨hk, hb⟩
        · exact hk ▸ hpresence
        · exact hk ▸ hlast hb
      refine ⟨?_, ?_⟩
      · have hsame : redis (presenceKey u) = w.redis (presenceKey u) := by
          refine hother (fun h => hv (presenceKey_inj.mp h).symm) fun hb => (hbeat hb).symm
        simpa [leaseHistory_cons, hv] using hsame.trans hw.presence
      · have hsame : redis (lastSeenKey u) = w.redis (lastSeenKey u) :=
          hother hseen.symm fun _ h => hv (lastSeenKey_inj.mp h).symm
        simpa [lastBeat_cons, hv] using hsame.trans hw.lastSeen

variable {G : PresenceWorld → PresenceAction → Prop}

theorem PresenceWorld.calls_subset {a : PresenceAction} (h : w.step ttl a = some w') :
    w.calls ⊆ w'.calls := by
  rcases step_cases h with ⟨d, -, rfl⟩ | ⟨v, call, redis, -, -, rfl⟩
  · exact List.Subset.refl _
  · exact List.subset_cons_self _ _

theorem Tracks.of_reach (h : Reach (presenceMachine ttl) G w)
    (hapart : ∀ e ∈ w.calls, e.what.apart u) : Tracks ttl u w := by
  refine h.invariant (I := fun w => (∀ e ∈ w.calls, e.what.apart u) → Tracks ttl u w) ?_ ?_ hapart
  · intro _
    exact ⟨rfl, rfl⟩
  · intro w w' a _ _ ih hstep hapart
    exact (ih fun e he => hapart e (PresenceWorld.calls_subset hstep he)).step hstep hapart

theorem inOrder_calls (h : Reach (presenceMachine ttl) G w) : InOrder w.calls w.now := by
  refine h.invariant (I := fun w => InOrder w.calls w.now) ?_ ?_
  · exact (trivial : InOrder ([] : List (Timed PresenceEvent)) 0)
  intro w w' a _ _ ih hstep
  rcases PresenceWorld.step_cases hstep with ⟨d, -, rfl⟩ | ⟨v, call, redis, -, -, rfl⟩
  · exact ih.mono (Nat.le_add_right _ d)
  · exact ⟨Nat.le_refl _, ih⟩

theorem inOrder_leaseHistory (h : InOrder calls now) : InOrder (leaseHistory u calls) now := by
  induction calls generalizing now with
  | nil => trivial
  | cons e calls ih =>
    rw [leaseHistory_cons]
    split
    · exact ⟨h.1, ih h.2⟩
    · exact (ih h.2).mono h.1

theorem beatRecently_iff : beatRecently ttl u w ↔
    ∃ e ∈ leaseHistory u w.calls, e.what.beats = true ∧ w.now < e.time + seconds ttl := by
  have hbeats : ∀ call : PresenceCall, call.lease.beats = call.beats := by
    intro call
    cases call <;> rfl
  constructor
  · rintro ⟨e, he, hu, hb, hlt⟩
    refine ⟨⟨e.time, e.what.call.lease⟩, ?_, (hbeats _).trans hb, hlt⟩
    exact List.mem_filterMap.mpr ⟨e, he, by rw [if_pos hu]⟩
  · rintro ⟨e, he, hb, hlt⟩
    obtain ⟨e', he', hsome⟩ := List.mem_filterMap.mp he
    obtain ⟨hu, hsome⟩ := Option.ite_none_right_eq_some.mp hsome
    obtain rfl := Option.some.inj hsome
    exact ⟨e', he', hu, (hbeats _).symm.trans hb, hlt⟩

/-! ## What `get` returns -/

theorem PresenceStatus.ofValue_value (s : PresenceStatus) : ofValue s.value = some s := by
  cases s <;> decide

/-- The text of an instant is no status. -/
theorem PresenceStatus.ofValue_isoformat (t : Nat) : ofValue (isoformatUtc t) = none := by
  have hne : ∀ s : PresenceStatus, s.value ≠ isoformatUtc t := by
    intro s hs
    have hdash := isoformatUtc_dash t
    rw [← hs] at hdash
    cases s <;> revert hdash <;> decide
  simp [ofValue, hne]

theorem Redis.get_storedStatus {k : String} {c : Option (Cell PresenceStatus)}
    (hr : r k = c.map storedStatus) : Store.get r now k =
      ((c.filter (·.live now)).map (·.value)).map fun s => .text s.value := by
  cases c with
  | none => simp [Store.get, Store.cell, hr]
  | some c =>
    by_cases hl : c.live now = true
    · have hl' : (storedStatus c).live now = true := hl
      simp only [Store.get, Store.cell, hr, Option.map_some, Option.filter, hl, hl', if_true]
      rfl
    · simp [Store.get, Store.cell, hr, Option.filter, hl]

/-- `get` returns what the lease of the user says, and the time of its last beat. -/
theorem Tracks.get (hw : Tracks ttl u w) (ho : InOrder w.calls w.now) :
    ∃ info, PresenceManager.get w.redis w.now u = some info ∧
      info.lastSeen = lastBeat u w.calls ∧
      ∀ s, s ≠ .offline →
        (info.status = s ↔ LeaseHistory.Held (seconds ttl) s (leaseHistory u w.calls) w.now) := by
  have hheld : ∀ s, _ ↔ LeaseHistory.Held (seconds ttl) s (leaseHistory u w.calls) w.now :=
    fun s => LeaseHistory.cell_live_iff (inOrder_leaseHistory ho)
  have hget : Store.get w.redis w.now (presenceKey u) = _ := Redis.get_storedStatus hw.presence
  have hseen : w.redis.getLastSeen w.now u = (lastBeat u w.calls).map .stamp := by
    rw [Redis.getLastSeen]
    cases hb : lastBeat u w.calls <;>
      simp [Store.get, Store.cell, hw.lastSeen, hb, Option.filter, Cell.live]
  generalize ((((leaseHistory u w.calls).cell (seconds ttl)).filter (·.live w.now)).map
    (·.value)) = live at hheld hget
  have hstatus : w.redis.getStatus w.now u = (live.getD .offline).value := by
    rw [Redis.getStatus, hget]
    cases live <;> rfl
  refine ⟨⟨u, live.getD .offline, lastBeat u w.calls⟩, ?_, rfl, fun s hs => ?_⟩
  · rw [PresenceManager.get, hstatus, PresenceStatus.ofValue_value, hseen]
    cases lastBeat u w.calls <;> rfl
  · rw [← hheld s]
    cases live with
    | none => simpa using hs.symm
    | some s' => simp

end RealtimeNotify.App
