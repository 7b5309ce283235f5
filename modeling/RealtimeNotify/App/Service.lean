import RealtimeNotify.App.Operations
import RealtimeNotify.Lib.Refinement
import Mathlib.Data.Set.Insert

/-!
# What the platform is for

A service with no instances, no Redis and no tables: it accepts notifications, clients log
in, and a client is shown the notifications of its user, as a backlog when it logs in and
live from then on.
-/

namespace RealtimeNotify.App

open RealtimeNotify.Lib RealtimeNotify.Python

/-- `accepted` are the notifications, the oldest first; `users` says as whom a client is
logged in, `caughtUp` what it was shown as its backlog; `pushed` is what was shown live, the
latest first. -/
structure Service where
  accepted : List NotificationEnvelope
  users : Nat → Option UUID
  caughtUp : Nat → Option (List NotificationEnvelope)
  pushed : List (Nat × LiveNotification)
  read : Set UUID

namespace Service

def empty : Service where
  accepted := []
  users _ := none
  caughtUp _ := none
  pushed := []
  read := ∅

inductive Label where
  | accept (e : NotificationEnvelope)
  | login (n : Nat) (id : UUID)
  | catchUp (n : Nat) (es : List NotificationEnvelope)
  | push (n : Nat) (live : LiveNotification)
  | read (n : Nat) (notificationId : UUID)

variable {s s' : Service} {n : Nat} {id : UUID} {e : NotificationEnvelope}
  {es : List NotificationEnvelope}

/-- `e` is an accepted notification for the user that client `n` is logged in as. -/
def Addressed (s : Service) (n : Nat) (e : NotificationEnvelope) : Prop :=
  e ∈ s.accepted ∧ s.users n = some e.userId

/-- An id is accepted once, a client logs in once, and it is shown a backlog once and no
notification live twice; all of it its user's. Only its user can mark one as read. -/
inductive Allows : Service → Label → Service → Prop where
  | accept {s : Service} {e : NotificationEnvelope} :
      e.notificationId ∉ s.accepted.map (·.notificationId) →
      Allows s (.accept e) { s with accepted := s.accepted ++ [e] }
  | login {s : Service} {n : Nat} {id : UUID} : s.users n = none →
      Allows s (.login n id) { s with users := Function.update s.users n (some id) }
  | catchUp {s : Service} {n : Nat} {es : List NotificationEnvelope} : s.caughtUp n = none →
      (∀ e ∈ es, s.Addressed n e) → (es.map (·.notificationId)).Nodup →
      Allows s (.catchUp n es) { s with caughtUp := Function.update s.caughtUp n (some es) }
  | push {s : Service} {n : Nat} {e : NotificationEnvelope} : s.Addressed n e →
      (∀ live, (n, live) ∈ s.pushed → live.notificationId ≠ e.live.notificationId) →
      Allows s (.push n e.live) { s with pushed := (n, e.live) :: s.pushed }
  | read {s : Service} {n : Nat} {e : NotificationEnvelope} : s.Addressed n e →
      Allows s (.read n e.notificationId) { s with read := insert e.notificationId s.read }

def spec : Spec Service Label := ⟨(· = .empty), Allows⟩

/-! ## What it guarantees -/

/-- Clients are shown notifications of their user only, each once live and once in the
backlog at most, and only what was accepted is read. -/
structure Sound (s : Service) : Prop where
  distinct : (s.accepted.map (·.notificationId)).Nodup
  backlog : ∀ n es, s.caughtUp n = some es →
    (∀ e ∈ es, s.Addressed n e) ∧ (es.map (·.notificationId)).Nodup
  live : ∀ n live, (n, live) ∈ s.pushed → ∃ e, s.Addressed n e ∧ live = e.live
  once : (s.pushed.map fun p => (p.1, p.2.notificationId)).Nodup
  read : ∀ k ∈ s.read, ∃ e ∈ s.accepted, e.notificationId = k

/-- Notifications and logins stay. -/
theorem Addressed.mono (h : s.Addressed n e) (haccepted : s.accepted ⊆ s'.accepted)
    (husers : ∀ id, s.users n = some id → s'.users n = some id) : s'.Addressed n e :=
  ⟨haccepted h.1, husers _ h.2⟩

theorem Sound.accept (h : s.Sound) (hid : e.notificationId ∉ s.accepted.map (·.notificationId)) :
    Sound { s with accepted := s.accepted ++ [e] } where
  distinct := by
    rw [List.map_append, List.nodup_append]
    refine ⟨h.distinct, List.nodup_singleton _, ?_⟩
    rintro k hk k' hk' rfl
    obtain rfl := List.mem_singleton.mp hk'
    exact hid hk
  backlog n es hes := by
    obtain ⟨hall, hdistinct⟩ := h.backlog n es hes
    exact ⟨fun e he => (hall e he).mono (List.subset_append_left _ _) fun _ => id, hdistinct⟩
  live n live hlive := by
    obtain ⟨e, he, heq⟩ := h.live n live hlive
    exact ⟨e, he.mono (List.subset_append_left _ _) fun _ => id, heq⟩
  once := h.once
  read k hk := by
    obtain ⟨e, he, heq⟩ := h.read k hk
    exact ⟨e, List.mem_append_left _ he, heq⟩

theorem users_login (hn : s.users n = none) (m : Nat) {id' : UUID} (h : s.users m = some id') :
    Function.update s.users n (some id) m = some id' := by
  have hmn : m ≠ n := by
    rintro rfl
    rw [hn] at h
    cases h
  rw [Function.update_of_ne hmn, h]

theorem Sound.login (h : s.Sound) (hn : s.users n = none) :
    Sound { s with users := Function.update s.users n (some id) } where
  distinct := h.distinct
  backlog m es hes := by
    obtain ⟨hall, hdistinct⟩ := h.backlog m es hes
    exact ⟨fun e he => (hall e he).mono (List.Subset.refl _) fun _ => users_login hn m, hdistinct⟩
  live m live hlive := by
    obtain ⟨e, he, heq⟩ := h.live m live hlive
    exact ⟨e, he.mono (List.Subset.refl _) fun _ => users_login hn m, heq⟩
  once := h.once
  read := h.read

theorem Sound.catchUp (h : s.Sound) (hes : ∀ e ∈ es, s.Addressed n e)
    (hdistinct : (es.map (·.notificationId)).Nodup) :
    Sound { s with caughtUp := Function.update s.caughtUp n (some es) } where
  distinct := h.distinct
  backlog m es' hes' := by
    by_cases hm : m = n
    · subst hm
      obtain rfl : es = es' := by simpa using hes'
      exact ⟨hes, hdistinct⟩
    · exact h.backlog m es' (by simpa [hm] using hes')
  live := h.live
  once := h.once
  read := h.read

theorem Sound.push (h : s.Sound) (he : s.Addressed n e)
    (hnew : ∀ live, (n, live) ∈ s.pushed → live.notificationId ≠ e.live.notificationId) :
    Sound { s with pushed := (n, e.live) :: s.pushed } where
  distinct := h.distinct
  backlog := h.backlog
  live m live hlive := by
    rcases List.mem_cons.mp hlive with heq | hlive
    · obtain ⟨rfl, rfl⟩ := Prod.mk.inj heq
      exact ⟨e, he, rfl⟩
    · exact h.live m live hlive
  once := by
    rw [List.map_cons, List.nodup_cons]
    refine ⟨fun hmem => ?_, h.once⟩
    obtain ⟨⟨m, live⟩, hlive, heq⟩ := List.mem_map.mp hmem
    obtain ⟨rfl, hid⟩ := Prod.mk.inj heq
    exact hnew live hlive hid
  read := h.read

theorem Sound.step {b : Label} (h : s.Sound) (hstep : Allows s b s') : s'.Sound := by
  cases hstep with
  | accept hid => exact h.accept hid
  | login hn => exact h.login hn
  | catchUp _ hes hdistinct => exact h.catchUp hes hdistinct
  | push he hnew => exact h.push he hnew
  | read he =>
    refine ⟨h.distinct, h.backlog, h.live, h.once, fun k hk => ?_⟩
    rcases Set.mem_insert_iff.mp hk with rfl | hk
    · exact ⟨_, he.1, rfl⟩
    · exact h.read k hk

theorem Sound.init : Sound .empty where
  distinct := List.nodup_nil
  backlog _ _ hes := by cases hes
  live _ _ hlive := by cases hlive
  once := List.nodup_nil
  read _ hk := absurd hk (Set.notMem_empty _)

theorem sound_of_run {bs : List Label} (h : spec.Run bs s) : s.Sound :=
  h.invariant (fun _ hs => hs ▸ .init) fun ih hstep => ih.step hstep

end Service

end RealtimeNotify.App
