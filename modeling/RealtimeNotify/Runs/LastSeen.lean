import RealtimeNotify.Python.Calendar
import RealtimeNotify.Runs.Keyspace

/-!
# When a user was last seen

`_touch_last_seen` stores the clock as text, and `get_last_seen` parses the text. A touch is
one instant: its clock is read where its command executes. Whatever was interleaved or
failed, what is read is the moment of the latest touch.
-/

namespace RealtimeNotify.App

open RealtimeNotify.Lib RealtimeNotify.Python

variable {env : Env} {w w' : World} {a : Action} {u : String} {id : TaskId} {cmd : RedisCmd}

/-- `get_last_seen` on the text that is stored. The outer `none` says that it raises. -/
def PresenceStore.readLastSeen (r : Redis) (now : Nat) (userId : String) :
    Option (Option Datetime) :=
  match r.getLastSeen now userId with
  | none => some none
  | some value => (readIso value.decode).map some

/-! ## Only users are written about -/

/-- The users whose keys a shutdown still has to delete. -/
def LifespanPc.pending : LifespanPc → List String
  | popping all _ _ | closing all _ _ => all
  | unregistering u todo | clearing u todo => u :: todo
  | _ => []

/-- The maps and the shutdowns name users, whose ids are UUIDs. -/
structure NamesUsers (w : World) : Prop where
  map : ∀ i u n, (w.shared.connections i).get u = some n → (UUID.ofString u).isSome = true
  lifespan : ∀ i p, w.processes i = some p → ∀ u ∈ p.lifespan.pending,
    (UUID.ofString u).isSome = true

theorem NamesUsers.init : NamesUsers .empty where
  map i u n h := by simp [World.empty] at h
  lifespan i p h := by simp [World.empty] at h

theorem LifespanPc.pending_unregisterLoop (all : List String) :
    (unregisterLoop all).pending = all := by
  cases all <;> rfl

theorem LifespanPc.pending_closeLoop {all todo : List String} {v : String}
    (h : v ∈ (closeLoop all todo).pending) : v ∈ all := by
  cases todo with
  | nil => rwa [closeLoop, pending_unregisterLoop] at h
  | cons u todo => exact h

/-- A shutdown takes its users from the map and drops them one by one. -/
theorem LifespanPc.pending_next {i : String} {pc : LifespanPc} {op : Op}
    {k : op.Reply → LifespanPc} {r : LifespanPc} {s sh : Shared} {c : Choice} {reply : op.Reply}
    {v : String} (hn : pc.next env i = .call op k r) (hx : s.exec op c = some (sh, reply))
    (hv : v ∈ (k reply).pending) : v ∈ pc.pending ∨ v ∈ (s.connections i).keys := by
  cases pc with
  | collecting =>
    cases hn
    obtain ⟨-, rfl⟩ : _ ∧ (s.connections i).keys = reply := by simpa [Shared.exec] using hx
    exact .inr (pending_closeLoop hv)
  | popping all u todo =>
    cases hn
    cases reply with
    | none => exact .inl (pending_closeLoop hv)
    | some n => exact .inl hv
  | closing all n todo =>
    cases hn
    exact .inl (pending_closeLoop hv)
  | unregistering u todo =>
    cases hn
    exact .inl hv
  | clearing u todo =>
    cases hn
    rw [pending_unregisterLoop] at hv
    exact .inl (List.mem_cons_of_mem _ hv)
  | serving | stopped | failed => cases hn <;> cases hv
  | _ =>
    cases hn
    cases hv

theorem LifespanPc.pending_raised {i : String} {pc : LifespanPc} {op : Op}
    {k : op.Reply → LifespanPc} {r : LifespanPc} {v : String}
    (hn : pc.next env i = .call op k r) (hv : v ∈ r.pending) : v ∈ pc.pending := by
  cases pc with
  | closing all n todo =>
    cases hn
    exact pending_closeLoop hv
  | stopped | failed => cases hn
  | _ =>
    cases hn
    cases hv

theorem NamesUsers.step (h : NamesUsers w) (hkeys : Keyspace env w) (hstep : Stepped env w a w') :
    NamesUsers w' where
  map i u n hget := by
    cases hstep.map_cases i u with
    | kept hsame => exact h.map i u n (hsame ▸ hget)
    | added _ hs _ hpc _ => exact hkeys.session _ _ u hs (by rw [hpc]; rfl)
    | removed _ _ _ hnone | crashed _ hnone =>
      rw [hnone] at hget
      cases hget
  lifespan i p' hp' u hu := by
    have hmap : u ∈ (w.shared.connections i).keys → (UUID.ofString u).isSome = true := by
      intro hmem
      obtain ⟨n, hn⟩ := Dict.get_of_mem_keys hmem
      exact h.map i u n hn
    cases hstep.process_cases hp' with
    | same hp => exact h.lifespan i p' hp u hu
    | new _ _ _ => cases hu
    | subscriber hp _ _ _ _ _ | liveness hp _ _ _ _ => exact h.lifespan i _ hp u hu
    | lifespan hp _ hadv _ _ =>
      cases hadv with
      | returned hn hx =>
        exact (LifespanPc.pending_next hn hx hu).elim (h.lifespan i _ hp u) hmap
      | raised hn _ | applied hn _ _ =>
        exact h.lifespan i _ hp u (LifespanPc.pending_raised hn hu)

/-! ## Touches -/

/-- Only `_touch_last_seen` works on the key: no presence key is one. -/
theorem NamesUsers.lastSeenCaller (h : NamesUsers w) (hkeys : Keyspace env w)
    (ha : w.awaits env id = some (.redis cmd)) (hk : cmd.key = lastSeenKey u) :
    cmd = PresenceStore.touchLastSeen u := by
  have hinit : keyInitial cmd.key = some 'p' := by rw [hk, keyInitial_lastSeenKey]
  have hne : ∀ {v}, (UUID.ofString v).isSome = true → presenceKey v ≠ lastSeenKey u :=
    fun hv => presenceKey_ne_lastSeenKey hv
  cases World.commandCaller ha with
  | @presence _ _ v hp =>
    cases hp with
    | online hs hpc | heartbeat hs hpc | leave hs hpc =>
      exact absurd hk (hne (hkeys.session _ _ v hs (by rw [hpc]; rfl)))
    | @update _ _ online hs hpc =>
      have hv := hkeys.session _ _ v hs (by rw [hpc]; rfl)
      cases online <;> exact absurd hk (hne hv)
    | seen hs hpc =>
      obtain rfl : v = u := lastSeenKey_inj.mp hk
      rfl
    | shutdown hp hpc =>
      exact absurd hk (hne (h.lifespan _ _ hp v (by rw [hpc]; exact List.mem_cons_self)))
  | allow hr => cases hinit.symm.trans hr
  | _ => simp at hinit

/-- The operation writes the `last_seen` key of `u`. -/
def Op.touches (u : String) : Op → Bool
  | .redis (.setNow k) => k = lastSeenKey u
  | _ => false

/-- It did, whether or not the handler learned of it. -/
def Event.touches (u : String) (e : Event) : Bool := e.what.effect.any (·.touches u)

/-- The time of the latest touch; a log has the latest first. -/
def lastTouch (u : String) (log : List Event) : Option Nat :=
  (log.find? (·.touches u)).map (·.time)

/-- The key holds the time of the latest touch. -/
def Stamped (u : String) (w : World) : Prop :=
  w.shared.redis (lastSeenKey u) = (lastTouch u w.log).map fun t => ⟨.stamp t, none⟩

theorem Stamped.init : Stamped u .empty := rfl

theorem Stamped.step (h : Stamped u w) (hnames : NamesUsers w) (hkeys : Keyspace env w)
    (hstep : Stepped env w a w') : Stamped u w' := by
  have heffect : ∀ {id op c sh e} {reply : op.Reply}, w.awaits env id = some op →
      w.shared.exec op c = some (sh, reply) → e.what.effect = some op →
      e.time = w.shared.now → w'.shared = sh → w'.log = e :: w.log → Stamped u w' := by
    intro id op c sh e reply ha hx heffect htime hsh hlog
    have htouch : e.touches u = op.touches u := by rw [Event.touches, heffect]; rfl
    rw [Stamped, hsh, hlog, lastTouch, List.find?_cons, htouch]
    cases ht : op.touches u with
    | true =>
      -- the key now holds the clock, which is the time of the event
      cases op with
      | redis cmd =>
        cases cmd with
        | setNow k =>
          obtain rfl : k = lastSeenKey u := of_decide_eq_true ht
          obtain ⟨r, hcmd, rfl⟩ := Shared.exec_redis hx
          obtain ⟨rfl, -⟩ := by simpa [RedisCmd.exec] using hcmd
          simp [htime]
        | _ => cases ht
      | _ => cases ht
    | false =>
      -- a command on the key would be a touch
      refine (Shared.exec_redis_frame hx fun cmd hop hk => ?_).trans h
      subst hop
      rw [hnames.lastSeenCaller hkeys ha hk] at ht
      simp [Op.touches, PresenceStore.touchLastSeen] at ht
  obtain ⟨sh, log, hsh, hlog, ht⟩ := hstep.touched
  cases ht with
  | tick | crash | started _ =>
    rw [Stamped, hsh, hlog]
    exact h
  | expireDedup =>
    rw [Stamped, hsh, hlog, Shared.evict_redis, Store.erase_ne (ne_of_keyInitial (by simp))]
    exact h
  | returned ha hx => exact heffect ha hx rfl rfl hsh hlog
  | raised _ _ =>
    rw [Stamped, hsh, hlog]
    exact h
  | applied ha _ hx => exact heffect ha hx rfl rfl hsh hlog

/-- The three invariants hold together. -/
structure Stamps (env : Env) (u : String) (w : World) : Prop where
  keyspace : Keyspace env w
  names : NamesUsers w
  stamped : Stamped u w

theorem Stamps.of_reachable (h : Reachable env w) : Stamps env u w := by
  refine h.invariant (I := Stamps env u) ⟨.init, .init, .init⟩ fun _ _ ih hstep => ?_
  have hstepped := World.stepped hstep
  exact ⟨ih.keyspace.step hstepped, ih.names.step ih.keyspace hstepped,
    ih.stamped.step ih.names ih.keyspace hstepped⟩

/-! ## What is read -/

/-- `last` is the moment of the latest touch, in UTC and not in the future. -/
structure SeenAt (w : World) (u : String) (last : Option Datetime) : Prop where
  latest : last.map (·.instant) = (lastTouch u w.log).map fun t : Nat => epochInstant + t
  utc : ∀ d, last = some d → d.utcoffset = 0
  past : ∀ d, last = some d → d.instant ≤ epochInstant + w.shared.now

/-- `get_last_seen` does not raise, and returns the moment of the latest touch of the user,
to the microsecond; without one it returns `None`. -/
theorem last_seen_is_latest_touch (h : Reachable env w) (hend : w.shared.now < endOfTime)
    (u : String) : ∃ last,
      PresenceStore.readLastSeen w.shared.redis w.shared.now u = some last ∧ SeenAt w u last := by
  obtain ⟨hkeys, -, hstamped⟩ := Stamps.of_reachable (u := u) h
  rw [Stamped] at hstamped
  cases htouch : lastTouch u w.log with
  | none =>
    rw [htouch, Option.map_none] at hstamped
    refine ⟨none, ?_, by rw [htouch]; rfl, by simp, by simp⟩
    rw [PresenceStore.readLastSeen, Redis.getLastSeen, Store.get_of_none hstamped]
  | some t =>
    rw [htouch, Option.map_some] at hstamped
    have hpast : t ≤ w.shared.now := by
      have hentry := hkeys.entry _ _ hstamped
      generalize lastSeenKey u = k at hentry
      cases hentry with
      | lastSeen _ ht => exact ht
    obtain ⟨d, hread, hutc, hinstant⟩ := readIso_isoformatUtc (Nat.lt_of_le_of_lt hpast hend)
    have hget : w.shared.redis.getLastSeen w.shared.now u = some (.stamp t) := by
      rw [Redis.getLastSeen]
      exact Store.get_eq_some.mpr ⟨_, hstamped, rfl, rfl⟩
    refine ⟨some d, ?_, ?_, ?_, ?_⟩
    · rw [PresenceStore.readLastSeen, hget]
      exact congrArg (Option.map some) hread
    · rw [htouch, Option.map_some, hinstant]
      rfl
    · rintro _ ⟨⟩
      exact hutc
    · rintro _ ⟨⟩
      omega

/-- A heartbeat twenty seconds after the connection. -/
def heartbeatLaterRun : List Action :=
  soloRun ++ .tick (seconds 20) :: Action.say 0 heartbeatMessage 3

theorem last_seen_is_latest_touch_heartbeat : ∃ w d,
    (platform plainEnv).run .empty heartbeatLaterRun = some w ∧
    PresenceStore.readLastSeen w.shared.redis w.shared.now someUser = some (some d) ∧
    d.instant = epochInstant + seconds 20 := by
  obtain ⟨w, hw, hnow, htouch⟩ : ∃ w, (platform plainEnv).run .empty heartbeatLaterRun = some w ∧
      w.shared.now = seconds 20 ∧ lastTouch someUser w.log = some (seconds 20) :=
    ⟨_, rfl, rfl, rfl⟩
  obtain ⟨last, hread, hseen⟩ :=
    last_seen_is_latest_touch (.of_run hw) (by rw [hnow]; decide) someUser
  obtain ⟨d, rfl, hinstant⟩ := Option.map_eq_some_iff.mp (hseen.latest.trans (by rw [htouch]; rfl))
  exact ⟨w, d, hw, hread, hinstant⟩

end RealtimeNotify.App
