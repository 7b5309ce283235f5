import RealtimeNotify.App.Frames

/-!
# What of the shared state is one user's

`A` is the user; `others` are the connection ids that sessions of other users
have. The part of `A` is everything but what is kept for the others: their keys,
their rows and receipts, and their entries of the connection maps. Each
operation either does to the part of `A` what it does by that part alone, or it
leaves it as it is.
-/

namespace RealtimeNotify.App

open RealtimeNotify.Lib RealtimeNotify.Python

section

variable (A : UUID) (others : String → Bool)

/-- The text denotes a user other than `A`. -/
def foreign (u : String) : Bool := (UUID.ofString u).any (· ≠ A)

/-- The keys that are kept for other users. -/
inductive ForeignKey : String → Prop where
  | registry {u} : foreign A u = true → ForeignKey (registryKey u)
  | presence {u} : foreign A u = true → ForeignKey (presenceKey u)
  | lastSeen {u} : foreign A u = true → ForeignKey (lastSeenKey u)
  | rateLimit {c} : others c = true → ForeignKey (rateLimitKey c)

/-- A value that belongs to the part of `A`. Whose a ticket is, its value says. -/
def Within (k : String) (v : RedisValue) : Prop :=
  ¬ ForeignKey A others k ∧ ∀ t, k = ticketKey t → foreign A v.decode = false

open Classical in
noncomputable def Redis.part (r : Redis) (now : Nat) (k : String) : Option (Cell RedisValue) :=
  (r.cell now k).filter fun c => decide (Within A others k c.value)

end

/-! ## Keys -/

section

variable {A : UUID} {others : String → Bool} {u c : String}

theorem foreign_of_ofString {id : UUID} (h : UUID.ofString u = some id) :
    foreign A u = decide (id ≠ A) := by
  simp [foreign, h]

theorem ofString_of_not_foreign (h : foreign A u = false) {id : UUID}
    (hid : UUID.ofString u = some id) : id = A := by
  rw [foreign_of_ofString hid] at h
  simpa using h

theorem foreign_registryKey : ForeignKey A others (registryKey u) ↔ foreign A u = true := by
  refine ⟨fun h => ?_, .registry⟩
  generalize hk : registryKey u = k at h
  cases h with
  | registry hu => exact registryKey_inj.mp hk ▸ hu
  | presence _ | lastSeen _ | rateLimit _ => exact absurd hk (ne_of_keyInitial (by simp))

theorem foreign_rateLimitKey : ForeignKey A others (rateLimitKey c) ↔ others c = true := by
  refine ⟨fun h => ?_, .rateLimit⟩
  generalize hk : rateLimitKey c = k at h
  cases h with
  | rateLimit hc =>
    have heq : c = _ := (String.append_right_inj _).mp hk
    exact heq ▸ hc
  | presence _ | lastSeen _ | registry _ => exact absurd hk (ne_of_keyInitial (by simp))

/-- A user's own presence key could be another's `last_seen` key only by its name. -/
theorem foreign_presenceKey (hu : (UUID.ofString u).isSome = true) :
    ForeignKey A others (presenceKey u) ↔ foreign A u = true := by
  refine ⟨fun h => ?_, .presence⟩
  generalize hk : presenceKey u = k at h
  cases h with
  | presence hv => exact presenceKey_inj.mp hk ▸ hv
  | lastSeen _ => exact absurd hk (presenceKey_ne_lastSeenKey hu)
  | registry _ | rateLimit _ => exact absurd hk (ne_of_keyInitial (by simp))

theorem foreign_lastSeenKey : ForeignKey A others (lastSeenKey u) ↔ foreign A u = true := by
  refine ⟨fun h => ?_, .lastSeen⟩
  generalize hk : lastSeenKey u = k at h
  cases h with
  | lastSeen hv => exact lastSeenKey_inj.mp hk ▸ hv
  | @presence v hv =>
    have hsome : (UUID.ofString v).isSome = true := by
      cases hid : UUID.ofString v with
      | none => simp [foreign, hid] at hv
      | some id => rfl
    exact absurd hk.symm (presenceKey_ne_lastSeenKey hsome)
  | registry _ | rateLimit _ => exact absurd hk (ne_of_keyInitial (by simp))

theorem not_foreignKey {k : String} (h : keyInitial k = some 'i' ∨ keyInitial k = some 'n' ∨
    keyInitial k = some 'w') : ¬ ForeignKey A others k := by
  intro hk
  cases hk <;> simp at h

theorem within_of_key {k : String} (h : ¬ ForeignKey A others k) (ht : keyInitial k ≠ some 'w')
    (v : RedisValue) : Within A others k v := by
  refine ⟨h, ?_⟩
  rintro t rfl
  simp at ht

end

/-! ## Redis -/

section

variable {A : UUID} {others : String → Bool} {r t r' t' : Redis} {now : Nat} {k : String}

/-- The reply of a command that reads is about the part of `A`. -/
def RedisCmd.Within (A : UUID) (others : String → Bool) (r : Redis) (now : Nat) : RedisCmd → Prop
  | get k | getdel k | .exists k | tokenBucket k _ _ =>
      ∀ c, r.cell now k = some c → App.Within A others k c.value
  | set .. | setNow _ | expire .. | delete _ => True

/-- The command reads only, or works on what is not in the part of `A`. -/
def RedisCmd.Apart (A : UUID) (others : String → Bool) (r : Redis) (now : Nat) : RedisCmd → Prop
  | get _ | .exists _ => True
  | set k v _ => r.part A others now k = none ∧ ¬ App.Within A others k (.text v)
  | getdel k => r.part A others now k = none
  | cmd => ForeignKey A others cmd.key

theorem Redis.part_congr (h : r.cell now k = t.cell now k) :
    r.part A others now k = t.part A others now k := by
  simp only [part, h]

theorem Redis.part_eq_cell (h : ∀ c, r.cell now k = some c → Within A others k c.value) :
    r.part A others now k = r.cell now k := by
  cases hc : r.cell now k with
  | none => simp [part, hc]
  | some c => simp [part, hc, Option.filter, h c hc]

theorem Redis.part_eq_none : r.part A others now k = none ↔
    ∀ c, r.cell now k = some c → ¬ Within A others k c.value := by
  simp [part, Option.filter_eq_none_iff]

theorem Redis.get_of_part (h : r.part A others now = t.part A others now)
    (hk : ∀ v, Within A others k v) : r.get now k = t.get now k := by
  have hcell : r.cell now k = t.cell now k := by
    rw [← part_eq_cell fun c _ => hk c.value, congrFun h k, part_eq_cell fun c _ => hk c.value]
  rw [Store.get_eq_map, hcell, Store.get_eq_map]

theorem Redis.part_of_foreign (h : ForeignKey A others k) : r.part A others now k = none :=
  part_eq_none.mpr fun _ _ hwithin => hwithin.1 h

/-- A new deadline does not change whose the value is. -/
theorem Redis.part_extend {e : Nat} : Redis.part A others (r.extend now k e) now k =
    (r.part A others now k).bind fun c =>
      (some ⟨c.value, some e⟩ : Option (Cell RedisValue)).filter (·.live now) := by
  rw [part, Store.cell_extend, part]
  cases hc : r.cell now k with
  | none => simp
  | some c =>
    by_cases hs : Within A others k c.value <;> by_cases hl : now < e <;>
      simp [Option.filter, Cell.live, hs, hl]

theorem Redis.part_later {d : Nat} : r.part A others (now + d) k =
    (r.part A others now k).filter (·.live (now + d)) := by
  rw [part, part, Store.cell_later (Nat.le_add_right now d), Option.filter_filter,
    Option.filter_filter]
  simp only [Bool.and_comm]

theorem RedisCmd.exec_put {v : String} {ex : Option Nat} {reply : Unit}
    (h : exec r now (set k v ex) = some (r', reply)) :
    r' = r.put k (.text v) (ex.map fun ttl => now + seconds ttl) := by
  rcases ex with _ | _ | ttl
  · simp only [exec, Option.map_none, Option.some.injEq, Prod.mk.injEq] at h
    exact h.1.symm
  · simp [exec] at h
  · exact exec_set h

/-- Two stores with the same part of `A` have it after the command too, and it
answers the same. -/
theorem RedisCmd.part_agree {cmd : RedisCmd} {x y : cmd.Reply}
    (h : r.part A others now = t.part A others now) (hr : cmd.Within A others r now)
    (ht : cmd.Within A others t now) (hx : cmd.exec r now = some (r', x))
    (hy : cmd.exec t now = some (t', y)) :
    r'.part A others now = t'.part A others now ∧ x = y := by
  suffices hself : r'.part A others now cmd.key = t'.part A others now cmd.key ∧ x = y by
    refine ⟨funext fun k => ?_, hself.2⟩
    by_cases hk : k = cmd.key
    · rw [hk]
      exact hself.1
    · rw [Redis.part_congr (Store.cell_congr (exec_frame hx hk)), congrFun h k,
        Redis.part_congr (Store.cell_congr (exec_frame hy hk))]
  -- what is read is in the part, so both read the same
  have hcell : ∀ k, (∀ c, r.cell now k = some c → App.Within A others k c.value) →
      (∀ c, t.cell now k = some c → App.Within A others k c.value) →
      r.cell now k = t.cell now k := fun k hr ht => by
    rw [← Redis.part_eq_cell hr, ← Redis.part_eq_cell ht, congrFun h k]
  cases cmd with
  | set k v ex =>
    rw [exec_put hx, exec_put hy]
    exact ⟨Redis.part_congr (Store.cell_put.trans Store.cell_put.symm), rfl⟩
  | setNow k =>
    obtain ⟨rfl, -⟩ := by simpa [exec] using hx
    obtain ⟨rfl, -⟩ := by simpa [exec] using hy
    exact ⟨Redis.part_congr (Store.cell_put.trans Store.cell_put.symm), rfl⟩
  | expire k ttl =>
    rw [exec_expire hx, exec_expire hy]
    exact ⟨by rw [RedisCmd.key, Redis.part_extend, Redis.part_extend, congrFun h k], rfl⟩
  | delete k =>
    obtain ⟨rfl, -⟩ := by simpa [exec] using hx
    obtain ⟨rfl, -⟩ := by simpa [exec] using hy
    exact ⟨Redis.part_congr (Store.cell_erase.trans Store.cell_erase.symm), rfl⟩
  | get k =>
    obtain ⟨rfl, rfl⟩ := by simpa [exec] using hx
    obtain ⟨rfl, rfl⟩ := by simpa [exec] using hy
    exact ⟨congrFun h k, by rw [Store.get_eq_map, Store.get_eq_map, hcell k hr ht]⟩
  | getdel k =>
    obtain ⟨rfl, rfl⟩ := by simpa [exec] using hx
    obtain ⟨rfl, rfl⟩ := by simpa [exec] using hy
    exact ⟨Redis.part_congr (Store.cell_erase.trans Store.cell_erase.symm),
      by rw [Store.get_eq_map, Store.get_eq_map, hcell k hr ht]⟩
  | «exists» k =>
    obtain ⟨rfl, rfl⟩ := by simpa [exec] using hx
    obtain ⟨rfl, rfl⟩ := by simpa [exec] using hy
    exact ⟨congrFun h k, by rw [Store.get_eq_map, Store.get_eq_map, hcell k hr ht]⟩
  | tokenBucket k limit window =>
    simp only [exec, runTokenBucket, hcell k hr ht] at hx hy
    rcases hc : t.cell now k with _ | ⟨_ | n | _, d⟩ <;>
      simp only [hc, Option.some.injEq, Prod.mk.injEq, reduceCtorEq] at hx hy
    all_goals
      obtain ⟨rfl, rfl⟩ := hx
      obtain ⟨rfl, rfl⟩ := hy
      exact ⟨Redis.part_congr (Store.cell_put.trans Store.cell_put.symm), rfl⟩

theorem RedisCmd.apart_of_foreign {cmd : RedisCmd} (h : ForeignKey A others cmd.key) :
    cmd.Apart A others r now := by
  cases cmd with
  | get _ | «exists» _ => trivial
  | set k v ex => exact ⟨Redis.part_of_foreign h, fun hs => hs.1 h⟩
  | getdel k => exact Redis.part_of_foreign h
  | setNow _ | expire _ _ | delete _ | tokenBucket _ _ _ => exact h

theorem RedisCmd.part_apart {cmd : RedisCmd} {x : cmd.Reply} (h : cmd.Apart A others r now)
    (hx : cmd.exec r now = some (r', x)) : r'.part A others now = r.part A others now := by
  suffices hself : r'.part A others now cmd.key = r.part A others now cmd.key by
    funext k
    by_cases hk : k = cmd.key
    · rw [hk]
      exact hself
    · exact Redis.part_congr (Store.cell_congr (exec_frame hx hk))
  cases cmd with
  | get k | «exists» k =>
    obtain ⟨rfl, -⟩ := by simpa [exec] using hx
    rfl
  | set k v ex =>
    rw [RedisCmd.key, h.1, exec_put hx, Redis.part_eq_none]
    intro c hc
    rw [Store.cell_put] at hc
    obtain ⟨hc, -⟩ := Option.filter_eq_some_iff.mp hc
    obtain rfl := Option.some.inj hc
    exact h.2
  | getdel k =>
    obtain ⟨rfl, -⟩ := by simpa [exec] using hx
    rw [RedisCmd.key, show r.part A others now k = none from h, Redis.part_eq_none]
    simp
  | setNow _ | expire _ _ | delete _ | tokenBucket _ _ _ =>
    rw [Redis.part_of_foreign h, Redis.part_of_foreign h]

end

/-! ## The tables -/

/-- The rows and receipts of `A`, and of every row what is fixed when it is
written: whether an id is taken is no secret. -/
structure Database.Part where
  envelopes : List NotificationEnvelope
  rows : List Notification
  receipts : List ReadReceipt

def Database.part (A : UUID) (db : Database) : Database.Part where
  envelopes := db.envelopes
  rows := db.notifications.filter (·.userId = A)
  receipts := db.readReceipts.filter (·.userId = A)

namespace NotificationRepository

variable {A : UUID} {db db' : Database} {n u : UUID}

theorem part_create (body : NotificationCreate) (t : Datetime) (h : db.part A = db'.part A) :
    (create db body t).1.part A = (create db' body t).1.part A ∧
      (create db body t).2 = (create db' body t).2 := by
  have hany : ∀ db : Database, db.notifications.any (·.notificationId = body.notificationId)
      = (db.part A).envelopes.any (·.notificationId = body.notificationId) := by
    intro db
    simp only [Database.part, Database.envelopes, List.any_map]
    rfl
  have hkept := h
  simp only [Database.part, Database.Part.mk.injEq, Database.envelopes] at h
  by_cases htaken : (db.part A).envelopes.any (·.notificationId = body.notificationId)
  · rw [create, if_pos ((hany db).trans htaken), create,
      if_pos ((hany db').trans (hkept ▸ htaken))]
    exact ⟨hkept, rfl⟩
  · rw [create, if_neg (by rwa [hany db]), create, if_neg (by rwa [hany db', ← hkept])]
    simp [Database.part, Database.envelopes, h]

/-- An update of rows that keeps their envelopes, seen by `A`. -/
theorem part_update (db : Database) {f : Notification → Notification}
    (hf : ∀ row, (f row).envelope = row.envelope) :
    ({ db with notifications := db.notifications.map f } : Database).part A =
      { db.part A with rows := (db.part A).rows.map f } := by
  have huser : ∀ row, (f row).userId = row.userId := fun row =>
    congrArg NotificationEnvelope.userId (hf row)
  simp [Database.part, Database.envelopes, List.filter_map, Function.comp_def, hf, huser]

theorem part_markDeliveredLive :
    (markDeliveredLive db n).part A = { db.part A with
      rows := (db.part A).rows.map fun row =>
        if row.notificationId = n then { row with deliveredLive := true } else row } :=
  part_update db fun row => by split <;> rfl

/-- The part of `A` says whether a receipt of `A` counts, and takes it in. -/
theorem part_markRead {t : Nat} (h : db.part A = db'.part A) :
    (markRead db n A t).1.part A = (markRead db' n A t).1.part A ∧
      (markRead db n A t).2 = (markRead db' n A t).2 := by
  have hany : ∀ db : Database,
      db.notifications.any (owned n A) = (db.part A).rows.any (owned n A) := by
    intro db
    simp only [Database.part, List.any_filter]
    refine congrArg _ (funext fun row => ?_)
    by_cases hu : row.userId = A <;> simp [owned, hu]
  have hrun : ∀ db : Database, (db.part A).rows.any (owned n A) = true →
      (markRead db n A t).1.part A = { db.part A with
        rows := (db.part A).rows.map fun row =>
          if owned n A row then { row with readAt := some t } else row
        receipts := (db.part A).receipts ++ [⟨n, A, t⟩] } := by
    intro db hdb
    rw [markRead, if_pos ((hany db).trans hdb)]
    have hrows := part_update (A := A) db
      (f := fun row => if owned n A row then { row with readAt := some t } else row)
      fun row => by split <;> rfl
    simp only [Database.part, Database.Part.mk.injEq, Database.envelopes] at hrows
    simp [Database.part, Database.envelopes, hrows]
  by_cases hmine : (db.part A).rows.any (owned n A) = true
  · have hmine' := hmine
    rw [h] at hmine'
    rw [hrun db hmine, hrun db' hmine', h, markRead, if_pos ((hany db).trans hmine), markRead,
      if_pos ((hany db').trans hmine')]
    exact ⟨rfl, rfl⟩
  · have hmine' := hmine
    rw [h] at hmine'
    rw [markRead, if_neg (by rwa [hany db]), markRead, if_neg (by rwa [hany db'])]
    exact ⟨h, rfl⟩

theorem part_getUnreadBacklog {limit : Nat} {tie : UUID → Nat} (h : db.part A = db'.part A) :
    getUnreadBacklog db A limit tie = getUnreadBacklog db' A limit tie := by
  have hunread : ∀ db : Database, unread db A = (db.part A).rows.filter (·.readAt.isNone) := by
    intro db
    simp [unread, Database.part, List.filter_filter, Bool.and_comm]
  rw [getUnreadBacklog, getUnreadBacklog, hunread db, hunread db', h]

theorem part_getHistory {limit : Nat} {before : Option Datetime} {tie : UUID → Nat}
    (h : db.part A = db'.part A) :
    getHistory db A limit before tie = getHistory db' A limit before tie := by
  have hrows : db.notifications.filter (·.userId = A) = db'.notifications.filter (·.userId = A) :=
    congrArg Database.Part.rows h
  simp only [getHistory, hrows]

/-! What is done for others leaves it. -/

theorem part_markDeliveredLive_apart
    (h : ∀ row ∈ db.notifications, row.notificationId = n → row.userId ≠ A) :
    (markDeliveredLive db n).part A = db.part A := by
  have hrows : (db.part A).rows.map (fun row =>
      if row.notificationId = n then { row with deliveredLive := true } else row)
        = (db.part A).rows := by
    refine (List.map_congr_left fun row hrow => ?_).trans (List.map_id _)
    obtain ⟨hmem, hu⟩ := List.mem_filter.mp hrow
    exact if_neg fun hn => h row hmem hn (of_decide_eq_true hu)
  rw [part_markDeliveredLive, hrows]

/-- Whatever id a receipt of another user names. -/
theorem part_markRead_apart {t : Nat} (hu : u ≠ A) : (markRead db n u t).1.part A = db.part A := by
  by_cases hany : db.notifications.any (owned n u)
  · rw [markRead, if_pos hany]
    have hrows := part_update (A := A) db
      (f := fun row => if owned n u row then { row with readAt := some t } else row)
      fun row => by split <;> rfl
    have hsame : (db.part A).rows.map (fun row =>
        if owned n u row then { row with readAt := some t } else row) = (db.part A).rows := by
      refine (List.map_congr_left fun row hrow => ?_).trans (List.map_id _)
      obtain ⟨-, hA⟩ := List.mem_filter.mp hrow
      refine if_neg fun hown => hu ?_
      simp only [owned, Bool.and_eq_true, decide_eq_true_eq] at hown hA
      exact hown.2.symm.trans hA
    rw [hsame] at hrows
    simp only [Database.part, Database.Part.mk.injEq, Database.envelopes] at hrows
    simp [Database.part, Database.envelopes, hrows, hu]
  · rw [markRead, if_neg hany]

end NotificationRepository

/-! ## The shared state -/

/-- What `A` may see of the shared state. The channels are not in it: a message
that waits for `A` is in the database, and its delivery leaves no trace. -/
structure Part where
  now : Nat
  redis : String → Option (Cell RedisValue)
  db : Database.Part
  connections : String → Dict String Nat

section

variable (A : UUID) (others : String → Bool)

def own (u : String) : Bool := !foreign A u

noncomputable def Shared.part (s : Shared) : Part where
  now := s.now
  redis := s.redis.part A others s.now
  db := s.db.part A
  connections i := (s.connections i).restrict (own A)

/-- What the operation does to the part of `A`, and its reply, are about that part. -/
def Op.Within (s : Shared) : Op → Prop
  | redis cmd => cmd.Within A others s.redis s.now
  | markRead _ u | getUnreadBacklog u _ => u = A
  | popSocket _ u => own A u = true
  | getSocket .. | nextMessage _ => False
  | _ => True

/-- The operation does nothing to the part of `A`. -/
def Op.Apart (s : Shared) : Op → Prop
  | redis cmd => cmd.Apart A others s.redis s.now
  | create _ => False
  | markDeliveredLive n => ∀ row ∈ s.db.notifications, row.notificationId = n → row.userId ≠ A
  | markRead _ u => u ≠ A
  | add _ u _ | remove _ u | popSocket _ u => own A u = false
  | _ => True

/-- The same answer as far as `A` is concerned. -/
def Op.Same : (op : Op) → op.Reply → op.Reply → Prop
  | connectedUserIds _, us, vs => us.filter (own A) = vs.filter (own A)
  | _, x, y => x = y

end

section

variable {A : UUID} {others : String → Bool} {s s' t t' : Shared} {i u : String}

theorem Shared.part_setConnections {d : Dict String Nat} :
    (s.setConnections i d).part A others = { s.part A others with
      connections := Function.update (s.part A others).connections i (d.restrict (own A)) } := by
  simp only [Shared.part, setConnections, Part.mk.injEq, true_and]
  funext j
  by_cases hj : j = i <;> simp [hj]

theorem Shared.part_setChannel {queue : Option (List PubSubMessage)} :
    (s.setChannel i queue).part A others = s.part A others := rfl

theorem Shared.part_publish {m : PubSubMessage} :
    (s.publish i m).part A others = s.part A others := by
  unfold publish
  split <;> rfl

theorem Shared.part_elapse (h : s.part A others = t.part A others) {d : Nat} :
    (s.elapse d).part A others = (t.elapse d).part A others := by
  simp only [Shared.part, Part.mk.injEq] at h
  obtain ⟨hnow, hredis, hdb, hconn⟩ := h
  simp only [Shared.part, elapse, Part.mk.injEq]
  refine ⟨by rw [hnow], funext fun k => ?_, hdb, hconn⟩
  rw [Redis.part_later, Redis.part_later, congrFun hredis k, hnow]

theorem Shared.part_evict (h : s.part A others = t.part A others) {k : String} :
    (s.evict k).part A others = (t.evict k).part A others := by
  simp only [Shared.part, Part.mk.injEq] at h
  obtain ⟨hnow, hredis, hdb, hconn⟩ := h
  simp only [Shared.part, evict, Part.mk.injEq]
  refine ⟨hnow, ?_, hdb, hconn⟩
  -- as by the command
  rw [hnow] at hredis ⊢
  have hdelete : ∀ r : Redis, (RedisCmd.delete k).exec r t.now = some (r.erase k, ()) :=
    fun _ => rfl
  have hwithin : ∀ r : Redis, (RedisCmd.delete k).Within A others r t.now := fun _ => trivial
  exact (RedisCmd.part_agree hredis (hwithin _) (hwithin _) (hdelete _) (hdelete _)).1

theorem Op.apart_of_foreign {cmd : RedisCmd} (h : ForeignKey A others cmd.key) :
    (Op.redis cmd).Apart A others s :=
  RedisCmd.apart_of_foreign h

theorem Op.same_refl (op : Op) (x : op.Reply) : op.Same A x x := by
  cases op <;> rfl

/-- One operation on two states with the same part of `A`. -/
theorem Shared.part_agree {op : Op} {c : Choice} {x y : op.Reply}
    (h : s.part A others = t.part A others) (hs : op.Within A others s) (ht : op.Within A others t)
    (hx : s.exec op c = some (s', x)) (hy : t.exec op c = some (t', y)) :
    s'.part A others = t'.part A others ∧ op.Same A x y := by
  have hkept := h
  simp only [Shared.part, Part.mk.injEq] at h
  obtain ⟨hnow, hredis, hdb, hconn⟩ := h
  cases op with
  | redis cmd =>
    obtain ⟨r, hr, rfl⟩ := exec_redis hx
    obtain ⟨q, hq, rfl⟩ := exec_redis hy
    rw [hnow] at hr hredis
    simp only [Op.Within, hnow] at hs
    obtain ⟨hpart, hreply⟩ := RedisCmd.part_agree hredis hs ht hr hq
    refine ⟨?_, hreply⟩
    simp only [Shared.part, Part.mk.injEq, hnow]
    exact ⟨trivial, hpart, hdb, hconn⟩
  | create body =>
    cases c with
    | createdAt time =>
      obtain ⟨rfl, rfl⟩ := by simpa [exec] using hx
      obtain ⟨rfl, rfl⟩ := by simpa [exec] using hy
      obtain ⟨hpart, hreply⟩ := NotificationRepository.part_create body time hdb
      refine ⟨?_, hreply⟩
      simp only [Shared.part, Part.mk.injEq]
      exact ⟨hnow, hredis, hpart, hconn⟩
    | _ => simp [exec] at hx
  | publish i u notification =>
    -- the channels are not in the part
    obtain ⟨rfl, rfl⟩ := by simpa [exec] using hx
    obtain ⟨rfl, rfl⟩ := by simpa [exec] using hy
    exact ⟨part_publish.trans (hkept.trans part_publish.symm), rfl⟩
  | markDeliveredLive n =>
    obtain ⟨rfl, rfl⟩ := by simpa [exec] using hx
    obtain ⟨rfl, rfl⟩ := by simpa [exec] using hy
    refine ⟨?_, rfl⟩
    simp only [Shared.part, Part.mk.injEq, NotificationRepository.part_markDeliveredLive, hdb]
    exact ⟨hnow, hredis, trivial, hconn⟩
  | markRead n u =>
    obtain rfl : u = A := hs
    obtain ⟨rfl, rfl⟩ := by simpa [exec] using hx
    obtain ⟨rfl, rfl⟩ := by simpa [exec] using hy
    obtain ⟨hpart, hreply⟩ := NotificationRepository.part_markRead (n := n) (t := t.now) hdb
    rw [hnow] at hredis ⊢
    refine ⟨?_, hreply⟩
    simp only [Shared.part, Part.mk.injEq]
    exact ⟨trivial, hredis, hpart, hconn⟩
  | getUnreadBacklog u limit =>
    obtain rfl : u = A := hs
    cases c with
    | tie tie =>
      obtain ⟨rfl, rfl⟩ := by simpa [exec] using hx
      obtain ⟨rfl, rfl⟩ := by simpa [exec] using hy
      exact ⟨hkept, NotificationRepository.part_getUnreadBacklog hdb⟩
    | _ => simp [exec] at hx
  | add i u n =>
    obtain ⟨rfl, rfl⟩ := by simpa [exec] using hx
    obtain ⟨rfl, rfl⟩ := by simpa [exec] using hy
    refine ⟨?_, rfl⟩
    -- the connection map of the part has the entries of `A` alone
    rw [part_setConnections, part_setConnections, hkept, Dict.restrict_set, Dict.restrict_set,
      congrFun hconn i]
  | remove i u =>
    obtain ⟨rfl, rfl⟩ := by simpa [exec] using hx
    obtain ⟨rfl, rfl⟩ := by simpa [exec] using hy
    refine ⟨?_, rfl⟩
    rw [part_setConnections, part_setConnections, hkept, Dict.restrict_pop, Dict.restrict_pop,
      congrFun hconn i]
  | popSocket i u =>
    obtain ⟨rfl, rfl⟩ := by simpa [exec] using hx
    obtain ⟨rfl, rfl⟩ := by simpa [exec] using hy
    constructor
    · rw [part_setConnections, part_setConnections, hkept, Dict.restrict_pop, Dict.restrict_pop,
        congrFun hconn i]
    · exact (Dict.get_restrict hs).symm.trans
        ((congrArg (Dict.get · u) (congrFun hconn i)).trans (Dict.get_restrict hs))
  | connectedUserIds i =>
    obtain ⟨rfl, rfl⟩ := by simpa [exec] using hx
    obtain ⟨rfl, rfl⟩ := by simpa [exec] using hy
    refine ⟨hkept, ?_⟩
    exact Dict.keys_restrict.symm.trans ((congrArg Dict.keys (congrFun hconn i)).trans
      Dict.keys_restrict)
  | getSocket i u | nextMessage i => exact hs.elim
  | subscribe i | unsubscribe i =>
    obtain ⟨rfl, rfl⟩ := by simpa [exec] using hx
    obtain ⟨rfl, rfl⟩ := by simpa [exec] using hy
    exact ⟨hkept, rfl⟩
  | receive n =>
    cases c with
    | received raw =>
      obtain ⟨rfl, rfl⟩ := by simpa [exec] using hx
      obtain ⟨rfl, rfl⟩ := by simpa [exec] using hy
      exact ⟨hkept, rfl⟩
    | _ => simp [exec] at hx
  | accept n | close n code reason | send n frame | sleep =>
    obtain ⟨rfl, rfl⟩ := by simpa [exec] using hx
    obtain ⟨rfl, rfl⟩ := by simpa [exec] using hy
    exact ⟨hkept, rfl⟩

/-- One operation for others. -/
theorem Shared.part_apart {op : Op} {c : Choice} {x : op.Reply} (h : op.Apart A others s)
    (hx : s.exec op c = some (s', x)) : s'.part A others = s.part A others := by
  cases op with
  | redis cmd =>
    obtain ⟨r, hr, rfl⟩ := exec_redis hx
    simp only [Shared.part, RedisCmd.part_apart h hr]
  | create body => exact h.elim
  | publish i u notification =>
    obtain ⟨rfl, -⟩ := by simpa [exec] using hx
    exact part_publish
  | markDeliveredLive n =>
    obtain ⟨rfl, -⟩ := by simpa [exec] using hx
    simp only [Shared.part, NotificationRepository.part_markDeliveredLive_apart h]
  | markRead n u =>
    obtain ⟨rfl, -⟩ := by simpa [exec] using hx
    simp only [Shared.part, NotificationRepository.part_markRead_apart h]
  | add i u n =>
    obtain ⟨rfl, -⟩ := by simpa [exec] using hx
    rw [part_setConnections, Dict.restrict_set, if_neg (Bool.eq_false_iff.mp h)]
    exact congrArg (Part.mk _ _ _) (Function.update_eq_self ..)
  | remove i u | popSocket i u =>
    obtain ⟨rfl, -⟩ := by simpa [exec] using hx
    rw [part_setConnections, Dict.restrict_pop_ne h]
    exact congrArg (Part.mk _ _ _) (Function.update_eq_self ..)
  | nextMessage i =>
    obtain ⟨queue, -, rfl⟩ := exec_nextMessage hx
    rfl
  | _ =>
    cases c <;> simp only [exec, Option.some.injEq, Prod.mk.injEq, reduceCtorEq] at hx
    all_goals
      obtain ⟨rfl, -⟩ := hx
      rfl

/-! ## What a client of the API reads -/

/-- The entry, the status and `last_seen` under a text that denotes `A`. -/
theorem Shared.reads_of_part (h : s.part A others = t.part A others)
    (hu : UUID.ofString u = some A) :
    s.redis.lookup s.now u = t.redis.lookup t.now u ∧
      s.redis.getStatus s.now u = t.redis.getStatus t.now u ∧
      s.redis.getLastSeen s.now u = t.redis.getLastSeen t.now u := by
  simp only [Shared.part, Part.mk.injEq] at h
  obtain ⟨hnow, hredis, -, -⟩ := h
  rw [hnow] at hredis ⊢
  have hown : foreign A u = false := by simp [foreign_of_ofString hu]
  have hget : ∀ k, ¬ ForeignKey A others k → keyInitial k ≠ some 'w' →
      s.redis.get t.now k = t.redis.get t.now k := fun k hk hw =>
    Redis.get_of_part hredis (within_of_key hk hw)
  refine ⟨?_, ?_, ?_⟩
  · rw [Redis.lookup, hget _ (by simp [foreign_registryKey, hown]) (by simp), Redis.lookup]
  · rw [Redis.getStatus, hget _ (by simp [foreign_presenceKey, hu, hown]) (by simp),
      Redis.getStatus]
  · rw [Redis.getLastSeen, hget _ (by simp [foreign_lastSeenKey, hown]) (by simp),
      Redis.getLastSeen]

end

end RealtimeNotify.App
