import RealtimeNotify.App.PresenceManager
import RealtimeNotify.App.World

/-!
# What the presence of a user says

In any run of calls on the presence manager: when a user with heartbeats is not
offline, what a status and a `last_seen` are evidence of, and for which texts the
lookup returns.
-/

namespace RealtimeNotify.App

open RealtimeNotify.Lib RealtimeNotify.Python

variable {ttl : Nat} {u : String} {w : PresenceWorld} {calls : List (Timed PresenceEvent)}

/-! ## A user who sends heartbeats -/

theorem marks_of_lastMark {m : PresenceCall} (h : lastMark u calls = some m) : m.marks = true := by
  obtain ⟨e, he, rfl⟩ := Option.map_eq_some_iff.mp h
  have hboth := List.find?_some he
  exact (Bool.and_eq_true_iff.mp hboth).2

theorem held_iff_lastMark {s : PresenceStatus} (ho : InOrder w.calls w.now) :
    LeaseHistory.Held (seconds ttl) s (leaseHistory u w.calls) w.now ↔
      (lastMark u w.calls).bind PresenceCall.status? = some s ∧ beatRecently ttl u w ∧
        (leaseHistory u w.calls).Paced (seconds ttl) := by
  rw [LeaseHistory.held_iff, LeaseHistory.recent_iff (inOrder_leaseHistory ho), beatRecently_iff,
    lastMark_leaseHistory]
  cases lastMark u w.calls <;> simp

/-- A user whose last mark is not `mark_offline`, and of whom there is a recent beat,
is not offline iff no heartbeat since the mark came later than the time to live
after the beat before it. -/
theorem heartbeating_user_iff (h : Reach (presenceMachine ttl) (fun _ _ => True) w)
    (hapart : ∀ e ∈ w.calls, e.what.apart u) {m : PresenceCall}
    (hmark : lastMark u w.calls = some m) (hm : m ≠ .markOffline)
    (hbeat : beatRecently ttl u w) :
    (∃ info, PresenceManager.get w.redis w.now u = some info ∧ info.status ≠ .offline) ↔
      (leaseHistory u w.calls).Paced (seconds ttl) := by
  have ho := inOrder_calls h
  obtain ⟨info, hget, -, hstatus⟩ := (Tracks.of_reach h hapart).get ho
  constructor
  · rintro ⟨info', hget', hne⟩
    obtain rfl := Option.some.inj (hget.symm.trans hget')
    have hheld := (hstatus info.status hne).mp rfl
    exact (LeaseHistory.held_iff.mp hheld).2.2
  · intro hpaced
    obtain ⟨s, hs, hne⟩ : ∃ s, m.status? = some s ∧ s ≠ .offline := by
      have hmarks := marks_of_lastMark hmark
      cases m with
      | markOnline => exact ⟨.online, rfl, by decide⟩
      | markAway => exact ⟨.away, rfl, by decide⟩
      | heartbeat => cases hmarks
      | markOffline => exact absurd rfl hm
    refine ⟨info, hget, ?_⟩
    have hheld := (held_iff_lastMark ho).mpr ⟨by rw [hmark]; exact hs, hbeat, hpaced⟩
    rwa [(hstatus s hne).mpr hheld]

/-- A user comes, and sends a heartbeat `gap` seconds later; another second passes. -/
def heartbeatRun (gap : Nat) : List PresenceAction :=
  [.call someUser .markOnline, .tick (seconds gap), .call someUser .heartbeat, .tick (seconds 1)]

theorem heartbeating_user_iff_in_time : ∃ w,
    (presenceMachine 30).run (presenceMachine 30).init (heartbeatRun 15) = some w ∧
    ((∃ info, PresenceManager.get w.redis w.now someUser = some info ∧ info.status ≠ .offline) ↔
      (leaseHistory someUser w.calls).Paced (seconds 30)) := by
  obtain ⟨w, hrun, hcalls, hnow⟩ : ∃ w,
      (presenceMachine 30).run (presenceMachine 30).init (heartbeatRun 15) = some w ∧
      w.calls = [⟨seconds 15, someUser, .heartbeat⟩, ⟨0, someUser, .markOnline⟩] ∧
      w.now = seconds 16 := ⟨_, rfl, rfl, rfl⟩
  refine ⟨w, hrun, heartbeating_user_iff
    (.of_actions (fun _ _ _ => trivial) hrun) ?_ (m := .markOnline) ?_ (by decide) ?_⟩
  · rw [hcalls]
    intro e he
    rcases List.mem_pair.mp he with rfl | rfl <;> exact PresenceEvent.apart_self _
  · rw [hcalls]
    rfl
  · refine ⟨_, hcalls ▸ List.mem_cons_self, rfl, rfl, ?_⟩
    rw [hnow]
    decide

/-- The heartbeat comes 31 seconds after the mark, and is one second old. -/
theorem heartbeating_user_offline : ∃ w info,
    (presenceMachine 30).run (presenceMachine 30).init (heartbeatRun 31) = some w ∧
    lastMark someUser w.calls = some .markOnline ∧ beatRecently 30 someUser w ∧
    PresenceManager.get w.redis w.now someUser = some info ∧ info.status = .offline := by
  refine ⟨_, _, rfl, rfl, ⟨_, List.mem_cons_self, rfl, rfl, ?_⟩, rfl, rfl⟩
  decide

/-! ## Evidence -/

/-- A user goes away, sends a heartbeat, and is in the background still. -/
def backgroundRun : List PresenceAction :=
  [.call someUser .markOnline, .call someUser .markAway, .tick (seconds 20),
    .call someUser .heartbeat, .tick (seconds 20)]

/-- The user id of a call is the text of a UUID. -/
def PresenceAction.byUuid : PresenceAction → Bool
  | .tick _ => true
  | .call userId _ => (UUID.ofString userId).isSome

theorem uuid_of_mem (h : Reach (presenceMachine ttl) (fun _ a => a.byUuid = true) w) :
    ∀ e ∈ w.calls, (UUID.ofString e.what.userId).isSome = true := by
  refine h.invariant (I := fun w => ∀ e ∈ w.calls, (UUID.ofString e.what.userId).isSome = true)
    (by simp [presenceMachine]) ?_
  intro w w' a _ hg ih hstep
  rcases PresenceWorld.step_cases hstep with ⟨d, -, rfl⟩ | ⟨v, call, redis, rfl, -, rfl⟩
  · exact ih
  · intro e he
    rcases List.mem_cons.mp he with rfl | he
    · exact hg
    · exact ih e he

/-- The last mark for `u` was `m`, and there is a recent beat. -/
def Evidence (ttl : Nat) (u : String) (m : PresenceCall) (w : PresenceWorld) : Prop :=
  lastMark u w.calls = some m ∧ beatRecently ttl u w

theorem Evidence.of_held {m : PresenceCall} {s : PresenceStatus} (ho : InOrder w.calls w.now)
    (hm : ∀ m', PresenceCall.status? m' = some s → m' = m)
    (h : LeaseHistory.Held (seconds ttl) s (leaseHistory u w.calls) w.now) :
    Evidence ttl u m w := by
  obtain ⟨hmark, hbeat, -⟩ := (held_iff_lastMark ho).mp h
  obtain ⟨m', hm', hs⟩ := Option.bind_eq_some_iff.mp hmark
  exact ⟨hm m' hs ▸ hm', hbeat⟩

/-- Whatever calls there were of users whose ids are UUIDs: a status has its mark and
a recent beat, and `last_seen` is the last beat. -/
theorem presence_has_evidence (h : Reach (presenceMachine ttl) (fun _ a => a.byUuid = true) w)
    (hu : (UUID.ofString u).isSome = true) :
    ∃ info, PresenceManager.get w.redis w.now u = some info ∧
      (info.status = .online → Evidence ttl u .markOnline w) ∧
      (info.status = .away → Evidence ttl u .markAway w) ∧
      info.lastSeen = lastBeat u w.calls := by
  have ho := inOrder_calls h
  have hapart : ∀ e ∈ w.calls, e.what.apart u := fun e he =>
    PresenceEvent.apart_of_uuid hu (uuid_of_mem h e he)
  obtain ⟨info, hget, hseen, hstatus⟩ := (Tracks.of_reach h hapart).get ho
  refine ⟨info, hget, fun hs => ?_, fun hs => ?_, hseen⟩
  · refine .of_held ho (fun m hm => ?_) ((hstatus .online (by decide)).mp hs)
    cases m <;> simp [PresenceCall.status?] at hm ⊢
  · refine .of_held ho (fun m hm => ?_) ((hstatus .away (by decide)).mp hs)
    cases m <;> simp [PresenceCall.status?] at hm ⊢

theorem presence_has_evidence_away : ∃ w info,
    (presenceMachine 30).run (presenceMachine 30).init backgroundRun = some w ∧
    PresenceManager.get w.redis w.now someUser = some info ∧ info.status = .away ∧
    Evidence 30 someUser .markAway w ∧ info.lastSeen = some (seconds 20) := by
  obtain ⟨w, info, hrun, hget, hstatus⟩ : ∃ w info,
      (presenceMachine 30).run (presenceMachine 30).init backgroundRun = some w ∧
      PresenceManager.get w.redis w.now someUser = some info ∧ info.status = .away :=
    ⟨_, _, rfl, rfl, rfl⟩
  have huser : (UUID.ofString someUser).isSome = true := by decide
  have huuid : ∀ a ∈ backgroundRun, a.byUuid = true := by decide
  obtain ⟨info', hget', -, haway, hseen⟩ := presence_has_evidence
    (.of_actions (fun _ a ha => huuid a ha) hrun) huser
  obtain rfl := Option.some.inj (hget.symm.trans hget')
  refine ⟨w, info, hrun, hget, hstatus, haway hstatus, hseen.trans ?_⟩
  obtain rfl := Option.some.inj hrun
  rfl

/-! ## Any text -/

/-- What the path parameter of `/presence/{user_id}` matches. -/
def acceptsPath (userId : String) : Bool := userId ≠ "" && !userId.toList.contains '/'

/-- `get` returns, and a status other than `offline` is one that was granted to this
very id and has not expired. -/
def LooksUp (ttl : Nat) (s : String) (w : PresenceWorld) : Prop :=
  ∃ info, PresenceManager.get w.redis w.now s = some info ∧
    ∀ status, status ≠ .offline → (info.status = status ↔
      LeaseHistory.Held (seconds ttl) status (leaseHistory s w.calls) w.now)

theorem exists_of_lastBeat {t : Nat} (h : lastBeat u calls = some t) :
    ∃ e ∈ calls, e.what.userId = u := by
  obtain ⟨e, he, -⟩ := Option.map_eq_some_iff.mp h
  have hboth := List.find?_some he
  exact ⟨e, List.mem_of_find?_eq_some he, of_decide_eq_true (Bool.and_eq_true_iff.mp hboth).1⟩

theorem lastBeat_of_mem {e : Timed PresenceEvent} (he : e ∈ calls)
    (hb : e.what.call.beats = true) : lastBeat e.what.userId calls ≠ none := by
  have hfound : (calls.find? fun e' =>
      e'.what.userId = e.what.userId && e'.what.call.beats).isSome = true :=
    List.find?_isSome.mpr ⟨e, he, by simp [hb]⟩
  obtain ⟨e', he'⟩ := Option.isSome_iff_exists.mp hfound
  simp [lastBeat, he']

/-- Looking up the text `last_seen:` before the id of a user with a `last_seen` raises,
and every other text is looked up as it should be. -/
theorem presence_lookup_iff (h : Reach (presenceMachine ttl) (fun _ a => a.byUuid = true) w)
    (s : String) :
    LooksUp ttl s w ↔ ¬ ∃ v, s = "last_seen:" ++ v ∧ lastBeat v w.calls ≠ none := by
  have huuid := uuid_of_mem h
  constructor
  · rintro ⟨info, hget, -⟩ ⟨v, rfl, hbeat⟩
    obtain ⟨t, ht⟩ := Option.ne_none_iff_exists'.mp hbeat
    obtain ⟨e, he, hv⟩ := exists_of_lastBeat ht
    have hapart : ∀ e ∈ w.calls, e.what.apart v := fun e' he' =>
      PresenceEvent.apart_of_uuid (hv ▸ huuid e he) (huuid e' he')
    have hseen := (Tracks.of_reach h hapart).lastSeen
    rw [ht, lastSeenKey_eq] at hseen
    have hstatus : w.redis.getStatus w.now ("last_seen:" ++ v) = isoformatUtc t := by
      simp [Redis.getStatus, Store.get, Store.cell, hseen, Option.filter, Cell.live,
        PresenceStore.status, RedisValue.decode]
    rw [PresenceManager.get, hstatus, PresenceStatus.ofValue_isoformat] at hget
    cases hget
  · intro hnot
    have hapart : ∀ e ∈ w.calls, e.what.apart s := by
      intro e he
      refine ⟨presenceKey_ne_lastSeenKey (huuid e he), fun hb hkey => ?_⟩
      rw [lastSeenKey_eq, presenceKey_inj] at hkey
      exact hnot ⟨_, hkey.symm, lastBeat_of_mem he hb⟩
    obtain ⟨info, hget, -, hstatus⟩ := (Tracks.of_reach h hapart).get (inOrder_calls h)
    exact ⟨info, hget, hstatus⟩

theorem presence_lookup_iff_user : ∃ w,
    (presenceMachine 30).run (presenceMachine 30).init backgroundRun = some w ∧
    LooksUp 30 someUser w := by
  obtain ⟨w, hrun⟩ : ∃ w,
      (presenceMachine 30).run (presenceMachine 30).init backgroundRun = some w := ⟨_, rfl⟩
  have huuid : ∀ a ∈ backgroundRun, a.byUuid = true := by decide
  refine ⟨w, hrun, (presence_lookup_iff
    (.of_actions (fun _ a ha => huuid a ha) hrun) someUser).mpr ?_⟩
  rintro ⟨v, hv, -⟩
  have hkey : presenceKey someUser = lastSeenKey v := by rw [lastSeenKey_eq, ← hv]
  exact presenceKey_ne_lastSeenKey (by decide) hkey

/-- The id of a user who was online once, behind `last_seen:`. -/
theorem presence_lookup_raises : ∃ w,
    (presenceMachine 30).run (presenceMachine 30).init backgroundRun = some w ∧
    (∀ a ∈ backgroundRun, a.byUuid = true) ∧ acceptsPath ("last_seen:" ++ someUser) = true ∧
    PresenceManager.get w.redis w.now ("last_seen:" ++ someUser) = none ∧
    ¬ LooksUp 30 ("last_seen:" ++ someUser) w := by
  obtain ⟨w, hrun, hget⟩ : ∃ w,
      (presenceMachine 30).run (presenceMachine 30).init backgroundRun = some w ∧
      PresenceManager.get w.redis w.now ("last_seen:" ++ someUser) = none := ⟨_, rfl, rfl⟩
  refine ⟨w, hrun, by decide, by decide, hget, ?_⟩
  rintro ⟨info, hsome, -⟩
  simp [hget] at hsome

end RealtimeNotify.App
