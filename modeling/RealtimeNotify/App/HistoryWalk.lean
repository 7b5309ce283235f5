import Mathlib.Data.List.Pairwise
import RealtimeNotify.App.History
import RealtimeNotify.App.Transactions

/-!
# A history walk while the tables change

Between two page requests of a client, any notifications may be inserted,
delivered and read. `created_at` is never written again, so the cursor still
passes each row at most once; only insertions can keep a walk going.
-/

namespace RealtimeNotify.App

open RealtimeNotify.Lib RealtimeNotify.Python
open NotificationRepository

/-- The requests of a walk from `before` on, up to the page without a
`next_cursor`. The schedule has for each request the order of its ties and what is
written between it and the next one. -/
def walkAmidWrites (userId : UUID) (limit : HistoryLimit) :
    Database → (schedule : List ((UUID → Nat) × List RepositoryCall)) → Option Datetime →
      List NotificationHistoryPage
  | _, [], _ => []
  | db, (tie, writes) :: schedule, before =>
      let page := getHistory db userId limit before tie
      page :: match page.nextCursor with
        | none => []
        | some cursor =>
            walkAmidWrites userId limit (writes.foldl RepositoryCall.run db) schedule (some cursor)

def RepositoryCall.inserts : RepositoryCall → Bool
  | .create _ _ => true
  | .markDeliveredLive _ => false
  | .markRead _ _ _ _ => false

/-! ## What the writes keep -/

variable {db db' : Database} {u : UUID} {limit : HistoryLimit} {call : RepositoryCall}
  {writes : List RepositoryCall} {schedule : List ((UUID → Nat) × List RepositoryCall)}

/-- A call adds an envelope with a fresh id, or leaves them as they are. -/
theorem RepositoryCall.run_envelopes (call : RepositoryCall) (db : Database) :
    (call.run db).envelopes = db.envelopes ∨ call.inserts = true ∧
      ∃ e : NotificationEnvelope, e.notificationId ∉ db.ids ∧
        (call.run db).envelopes = db.envelopes ++ [e] := by
  cases call with
  | create body createdAt =>
    cases hrow : NotificationRepository.create db body createdAt with
    | mk db' row? =>
      rw [RepositoryCall.run, hrow]
      cases row? with
      | none => exact .inl (by rw [(create_none hrow).1])
      | some row =>
        obtain ⟨hfresh, hrows, hid, -⟩ := create_some hrow
        refine .inr ⟨rfl, row.envelope, by rwa [Notification.envelope_notificationId, hid], ?_⟩
        rw [Database.envelopes, hrows, List.map_append]
        rfl
  | markDeliveredLive n => exact .inl envelopes_markDeliveredLive
  | markRead n v readAt raises =>
    rcases markRead_call db n v readAt raises with heq | heq
    · exact .inl (congrArg Database.envelopes heq)
    · exact .inl ((congrArg Database.envelopes heq).trans envelopes_markRead)

/-- Later tables have the envelopes of earlier ones, still under distinct ids. -/
structure Extends (db db' : Database) : Prop where
  ids : db'.ids.Nodup
  kept : db.envelopes ⊆ db'.envelopes

theorem Extends.refl (h : db.ids.Nodup) : Extends db db := ⟨h, List.Subset.refl _⟩

theorem Extends.run (h : Extends db db') : Extends db (call.run db') := by
  rcases call.run_envelopes db' with heq | ⟨-, e, hfresh, heq⟩
  · refine ⟨?_, heq.symm ▸ h.kept⟩
    rw [Database.ids_eq_envelopes, heq, ← Database.ids_eq_envelopes]
    exact h.ids
  · refine ⟨?_, ?_⟩
    · rw [Database.ids_eq_envelopes, heq, List.map_append, ← Database.ids_eq_envelopes]
      refine List.nodup_append.mpr ⟨h.ids, List.nodup_singleton _, ?_⟩
      rintro n hn _ hnew rfl
      rw [List.map_singleton, List.mem_singleton] at hnew
      exact hfresh (hnew ▸ hn)
    · rw [heq]
      exact fun e he => List.mem_append_left _ (h.kept he)

theorem Extends.foldl (h : Extends db db') : Extends db (writes.foldl RepositoryCall.run db') := by
  induction writes generalizing db' with
  | nil => exact h
  | cons call writes ih => exact ih h.run

/-- An id has the same envelope in both tables. -/
def Agree (db db' : Database) : Prop :=
  ∀ e ∈ db.envelopes, ∀ e' ∈ db'.envelopes, e.notificationId = e'.notificationId → e = e'

theorem Agree.symm (h : Agree db db') : Agree db' db := fun e he e' he' hid =>
  (h e' he' e he hid.symm).symm

theorem Extends.agree (h : Extends db db') : Agree db db' := fun e he e' he' hid => by
  have hids := h.ids
  rw [Database.ids_eq_envelopes] at hids
  exact List.inj_on_of_nodup_map hids (h.kept he) he' hid

/-! ## The walk as one of the library -/

/-- The tables as the requests would find them if the walk did not end. -/
def databases : Database → List ((UUID → Nat) × List RepositoryCall) →
    List ((UUID → Nat) × Database)
  | _, [] => []
  | db, (tie, writes) :: schedule =>
      (tie, db) :: databases (writes.foldl RepositoryCall.run db) schedule

theorem databases_length : (databases db schedule).length = schedule.length := by
  induction schedule generalizing db with
  | nil => rfl
  | cons s schedule ih => rw [databases, List.length_cons, ih, List.length_cons]

def tablesOf (db : Database) (schedule : List ((UUID → Nat) × List RepositoryCall)) (u : UUID) :
    List ((Notification → Nat) × List Notification) :=
  (databases db schedule).map fun p => (fun row => p.1 row.notificationId, rowsOf p.2 u)

theorem walkAmidWrites_eq {before : Option Datetime} :
    walkAmidWrites u limit db schedule before
      = (walk Notification.recency limit.val (tablesOf db schedule u)
          (before.map recencyOf)).map (historyPage limit) := by
  induction schedule generalizing db before with
  | nil => rfl
  | cons s schedule ih =>
    obtain ⟨tie, writes⟩ := s
    rw [walkAmidWrites, tablesOf, databases, List.map_cons, walk, getHistory_eq,
      nextCursor_recency, List.map_cons]
    cases hnext : (historyPage limit (page Notification.recency
        (fun row => tie row.notificationId) limit.val (before.map recencyOf)
        (rowsOf db u))).nextCursor with
    | none => rfl
    | some cursor => simp only [Option.map_some, ih, tablesOf]

theorem databases_extends (h : Extends db db') {p : (UUID → Nat) × Database}
    (hp : p ∈ databases db' schedule) : Extends db p.2 := by
  induction schedule generalizing db' with
  | nil => cases hp
  | cons s schedule ih =>
    rcases List.mem_cons.mp hp with rfl | hp
    · exact h
    · exact ih h.foldl hp

/-- Of any two tables of a walk, one is a later state of the other. -/
theorem databases_pairwise (h : db.ids.Nodup) :
    (databases db schedule).Pairwise fun p q => Extends p.2 q.2 := by
  induction schedule generalizing db with
  | nil => exact .nil
  | cons s schedule ih =>
    have hnext : Extends db (s.2.foldl RepositoryCall.run db) := (Extends.refl h).foldl
    exact List.pairwise_cons.mpr ⟨fun p hp => databases_extends hnext hp, ih hnext.ids⟩

theorem databases_agree (h : db.ids.Nodup) {p q : (UUID → Nat) × Database}
    (hp : p ∈ databases db schedule) (hq : q ∈ databases db schedule) : Agree p.2 q.2 := by
  have hlater : (databases db schedule).Pairwise fun p q => Agree p.2 q.2 :=
    (databases_pairwise h).imp Extends.agree
  have hsymm : Std.Symm fun p q : (UUID → Nat) × Database => Agree p.2 q.2 :=
    ⟨fun _ _ => Agree.symm⟩
  refine hlater.forall_of_forall (fun p hp => ?_) hp hq
  exact (Extends.refl (databases_extends (Extends.refl h) hp).ids).agree

theorem foldl_envelopes (hquiet : ∀ call ∈ writes, call.inserts = false) :
    (writes.foldl RepositoryCall.run db).envelopes = db.envelopes := by
  induction writes generalizing db with
  | nil => rfl
  | cons call writes ih =>
    rw [List.foldl_cons, ih fun c hc => hquiet c (List.mem_cons_of_mem _ hc)]
    rcases call.run_envelopes db with heq | ⟨hins, -⟩
    · exact heq
    · rw [hquiet call List.mem_cons_self] at hins
      cases hins

/-- Without insertions every request finds the envelopes of the first. -/
theorem databases_envelopes (hquiet : ∀ s ∈ schedule, ∀ call ∈ s.2, call.inserts = false)
    {p : (UUID → Nat) × Database} (hp : p ∈ databases db schedule) :
    p.2.envelopes = db.envelopes := by
  induction schedule generalizing db with
  | nil => cases hp
  | cons s schedule ih =>
    rcases List.mem_cons.mp hp with rfl | hp
    · rfl
    · rw [ih (fun t ht => hquiet t (List.mem_cons_of_mem _ ht)) hp,
        foldl_envelopes (hquiet s List.mem_cons_self)]

theorem rowsOf_recency : (rowsOf db u).map Notification.recency
    = (db.envelopes.filter (·.userId = u)).map (OrderDual.toDual ·.createdAt.instant) := by
  rw [rowsOf, Database.envelopes, List.filter_map, List.map_map]
  rfl

/-! ## What a walk returns -/

/-- The pages of a walk: nothing twice, latest first, each page strictly before
the one ahead of it. -/
structure HistoryWalked (u : UUID) (pages : List NotificationHistoryPage) : Prop where
  once : ((pages.flatMap (·.notifications)).map (·.notificationId)).Nodup
  latestFirst : (pages.flatMap (·.notifications)).Pairwise fun r s =>
    s.createdAt.instant ≤ r.createdAt.instant
  descends : pages.Pairwise fun p q => ∀ r ∈ p.notifications, ∀ s ∈ q.notifications,
    s.createdAt.instant < r.createdAt.instant
  own : ∀ r ∈ pages.flatMap (·.notifications), r.userId = u

theorem flatMap_historyPage {ps : List (List Notification)} :
    (ps.map (historyPage limit)).flatMap (·.notifications) = ps.flatten.map (·.read) := by
  rw [List.flatMap_map, List.map_flatten, List.flatMap_def]
  rfl

theorem walkAmidWrites_walked (h : db.ids.Nodup) :
    HistoryWalked u (walkAmidWrites u limit db schedule none) := by
  rw [walkAmidWrites_eq, Option.map_none]
  have hrow : ∀ {p : List Notification} {row : Notification},
      p ∈ walk Notification.recency limit.val (tablesOf db schedule u) none → row ∈ p →
        row.userId = u := by
    intro p row hp hrow
    obtain ⟨⟨t, ht, hmem⟩, -⟩ := mem_walk hp hrow
    obtain ⟨d, -, rfl⟩ := List.mem_map.mp ht
    exact of_decide_eq_true (List.mem_filter.mp hmem).2
  constructor
  · rw [flatMap_historyPage, List.map_map]
    refine walk_nodup (fun t ht => ?_) fun t ht t' ht' r hr s hs hid => ?_
    · obtain ⟨d, hd, rfl⟩ := List.mem_map.mp ht
      exact (databases_extends (Extends.refl h) hd).ids.sublist (List.filter_sublist.map _)
    · obtain ⟨d, hd, rfl⟩ := List.mem_map.mp ht
      obtain ⟨d', hd', rfl⟩ := List.mem_map.mp ht'
      have heq : r.envelope = s.envelope := databases_agree h hd hd' _
        (List.mem_map_of_mem (List.mem_of_mem_filter hr)) _
        (List.mem_map_of_mem (List.mem_of_mem_filter hs)) hid
      exact congrArg (fun e => OrderDual.toDual e.createdAt.instant) heq
  · rw [flatMap_historyPage, List.pairwise_map]
    exact walk_sorted Notification.recency
  · rw [List.pairwise_map]
    refine (walk_ascends Notification.recency).imp fun hlt r hr s hs => ?_
    obtain ⟨row, hrow, rfl⟩ := List.mem_map.mp hr
    obtain ⟨row', hrow', rfl⟩ := List.mem_map.mp hs
    exact hlt row hrow row' hrow'
  · intro r hr
    rw [flatMap_historyPage] at hr
    obtain ⟨row, hmem, rfl⟩ := List.mem_map.mp hr
    obtain ⟨p, hp, hmem⟩ := List.mem_flatten.mp hmem
    exact hrow hp hmem

theorem walkAmidWrites_ends
    (hquiet : ∀ s ∈ schedule, ∀ call ∈ s.2, call.inserts = false) :
    (walkAmidWrites u limit db schedule none).length ≤ (rowsOf db u).length / limit.val + 1 ∧
      ((rowsOf db u).length / limit.val < schedule.length → ∃ page,
        (walkAmidWrites u limit db schedule none).getLast? = some page ∧
          page.nextCursor = none) := by
  have hkeys : ∀ t ∈ tablesOf db schedule u, (t.2.map Notification.recency).Perm
      ((rowsOf db u).map Notification.recency) := by
    intro t ht
    obtain ⟨d, hd, rfl⟩ := List.mem_map.mp ht
    rw [rowsOf_recency, rowsOf_recency, databases_envelopes hquiet hd]
  obtain ⟨hcount, hend⟩ := walk_ends none limit.ge hkeys
  have hall : ahead none ((rowsOf db u).map Notification.recency) = (rowsOf db u).length := by
    simp [ahead]
  rw [hall] at hcount hend
  rw [tablesOf, List.length_map, databases_length, ← tablesOf] at hend
  rw [walkAmidWrites_eq, Option.map_none, List.length_map, List.getLast?_map]
  refine ⟨hcount, fun hlt => ?_⟩
  obtain ⟨p, hp, hnone⟩ := hend hlt
  refine ⟨historyPage limit p, by rw [hp]; rfl, ?_⟩
  rwa [nextCursor_recency, Option.map_eq_none_iff] at hnone

/-- Over any table and whatever is written between its requests, a walk repeats
nothing and goes strictly back in time from page to page; if nothing is inserted,
it ends within one request more than there are full pages. -/
theorem history_walk (db : Database) (hdb : db.ids.Nodup) (u : UUID) (limit : HistoryLimit)
    (schedule : List ((UUID → Nat) × List RepositoryCall)) :
    HistoryWalked u (walkAmidWrites u limit db schedule none) ∧
    ((∀ s ∈ schedule, ∀ call ∈ s.2, call.inserts = false) →
      (walkAmidWrites u limit db schedule none).length ≤ (rowsOf db u).length / limit.val + 1 ∧
      ((rowsOf db u).length / limit.val < schedule.length → ∃ page,
        (walkAmidWrites u limit db schedule none).getLast? = some page ∧
          page.nextCursor = none)) :=
  ⟨walkAmidWrites_walked hdb, walkAmidWrites_ends⟩

/-- Two rows, the later one read between the requests. -/
theorem history_walk_two :
    ∃ pages, walkAmidWrites historyUser { val := 1 } ⟨[rowAt 0 0, rowAt 1 1], []⟩
        [(fun _ => 0, [.markDeliveredLive ⟨0, by decide⟩]),
          (fun _ => 0, [.markRead ⟨1, by decide⟩ historyUser 5 fun _ => false]),
          (fun _ => 0, [])] none = pages ∧
      HistoryWalked historyUser pages ∧ pages.length ≤ 3 ∧
      ∃ page, pages.getLast? = some page ∧ page.nextCursor = none := by
  obtain ⟨hwalked, hends⟩ := history_walk ⟨[rowAt 0 0, rowAt 1 1], []⟩ (by decide) historyUser
    { val := 1 } [(fun _ => 0, [.markDeliveredLive ⟨0, by decide⟩]),
      (fun _ => 0, [.markRead ⟨1, by decide⟩ historyUser 5 fun _ => false]), (fun _ => 0, [])]
  have hquiet := hends (by simp [RepositoryCall.inserts])
  exact ⟨_, rfl, hwalked, hquiet.1, hquiet.2 (by decide)⟩

end RealtimeNotify.App
