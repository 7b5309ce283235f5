import RealtimeNotify.App.Service
import RealtimeNotify.Runs.Isolation
import RealtimeNotify.Runs.Order
import RealtimeNotify.Runs.Completion
import RealtimeNotify.Runs.ReadReceipts

/-!
# The platform refines the service

Seen from outside, a world is its rows and what its log says that clients were shown. Every
step of the platform, on any instance and whatever fails, is one of the service or none.
-/

namespace RealtimeNotify.App

open RealtimeNotify.Lib RealtimeNotify.Python

variable {env : Env} {w w' : World} {a : Action} {n : Nat} {id : UUID}

/-! ## The view -/

/-- Session `n` redeemed its ticket and goes on as `id`. -/
def Event.loggedIn? (n : Nat) (e : Event) : Option UUID :=
  if e.task = .session n then
    match e.what with
    | .returned (.redis (.getdel _)) (reply : Option RedisValue) =>
        reply.bind fun v => UUID.ofString v.decode
    | _ => none
  else none

/-- The backlog that was sent on socket `n`. -/
def Event.caughtUp? (n : Nat) (e : Event) : Option (List NotificationEnvelope) :=
  match e.frameOn? n with
  | some (.backlog es) => some es
  | _ => none

/-- The live notification that was sent, and on which socket. -/
def Event.pushed? (e : Event) : Option (Nat × LiveNotification) :=
  match e.what.effect with
  | some (.send n (.notification live)) => some (n, live)
  | _ => none

/-- The world as a service. -/
def World.service (w : World) : Service where
  accepted := w.shared.db.envelopes
  users n := w.log.findSome? (·.loggedIn? n)
  caughtUp n := w.log.findSome? (·.caughtUp? n)
  pushed := w.log.filterMap Event.pushed?
  read := w.shared.db.readIds

theorem Event.caughtUp_eq_some {e : Event} {es : List NotificationEnvelope} :
    e.caughtUp? n = some es ↔ e.what.effect = some (.send n (.backlog es)) := by
  rw [← Event.frameOn_eq_some]
  unfold caughtUp?
  split
  · rename_i es' hframe
    rw [hframe, Option.some.injEq, Option.some.injEq, Frame.backlog.injEq]
  · rename_i hnot
    exact ⟨nofun, fun hframe => absurd hframe (hnot es)⟩

theorem Event.caughtUp_eq_none {e : Event}
    (h : ∀ es, e.what.effect ≠ some (.send n (.backlog es))) : e.caughtUp? n = none :=
  Option.eq_none_iff_forall_ne_some.mpr fun es hes => h es (caughtUp_eq_some.mp hes)

theorem Event.pushed_eq_some {e : Event} {live : LiveNotification} :
    e.pushed? = some (n, live) ↔ e.what.effect = some (.send n (.notification live)) := by
  unfold pushed?
  split
  · rename_i m x heff
    simp [heff]
  · rename_i hnot
    exact ⟨nofun, fun heff => absurd heff (hnot n live)⟩

theorem Event.pushed_eq_none {e : Event}
    (h : ∀ n live, e.what.effect ≠ some (.send n (.notification live))) : e.pushed? = none :=
  Option.eq_none_iff_forall_ne_some.mpr fun p hp => h p.1 p.2 (pushed_eq_some.mp hp)

/-- Only a command `GETDEL` logs in. -/
theorem Event.loggedIn_eq_none {e : Event}
    (h : ∀ k, e.what.effect ≠ some (.redis (.getdel k))) : e.loggedIn? n = none := by
  unfold loggedIn?
  split
  · split
    · rename_i k reply hwhat
      exact absurd (by rw [hwhat]; rfl) (h k)
    · rfl
  · rfl

/-- One event more. -/
theorem service_cons {e : Event} (hlog : w'.log = e :: w.log) : w'.service =
    { accepted := w'.shared.db.envelopes
      users := fun n => (e.loggedIn? n).or (w.service.users n)
      caughtUp := fun n => (e.caughtUp? n).or (w.service.caughtUp n)
      pushed := e.pushed?.toList ++ w.service.pushed
      read := w'.shared.db.readIds } := by
  simp only [World.service, hlog, Service.mk.injEq, true_and, and_true]
  refine ⟨?_, ?_, ?_⟩
  · funext n
    rw [List.findSome?_cons]
    cases e.loggedIn? n <;> rfl
  · funext n
    rw [List.findSome?_cons]
    cases e.caughtUp? n <;> rfl
  · cases hp : e.pushed? with
    | none => rw [List.filterMap_cons_none hp]; rfl
    | some p => rw [List.filterMap_cons_some hp]; rfl

theorem service_same (hlog : w'.log = w.log) (hdb : w'.shared.db = w.shared.db) :
    w'.service = w.service := by
  simp only [World.service, hlog, hdb]

/-- What an event defines for one client only, it adds for that client. -/
theorem or_eq_update {β : Type} {f g : Nat → Option β} {x : β} (hx : f n = some x)
    (hother : ∀ m, m ≠ n → f m = none) :
    (fun m => (f m).or (g m)) = Function.update g n (some x) := by
  funext m
  by_cases hm : m = n
  · rw [hm, Function.update_self, hx]
    rfl
  · rw [Function.update_of_ne hm, hother m hm]
    rfl

/-! ## Logins -/

theorem Event.loggedIn_of_redeemed {e : Event} {t u : String} (htask : e.task = .session n)
    (h : e.redeemed? t = some (some u)) : e.loggedIn? n = UUID.ofString u := by
  obtain ⟨time, task, what⟩ := e
  rw [loggedIn?, if_pos htask]
  unfold redeemed? at h
  split at h
  · rename_i k reply hwhat
    obtain ⟨-, v, rfl, rfl⟩ := by simpa [Option.ite_none_right_eq_some] using h
    simp only at hwhat
    subst hwhat
    rfl
  · cases h

/-- Only a session that redeems sends `GETDEL`. -/
theorem World.getdelCaller {task : TaskId} {k : String}
    (h : w.awaits env task = some (.redis (.getdel k))) :
    ∃ n s t, task = .session n ∧ w.sessions n = some s ∧ s.pc = .redeem t ∧ k = ticketKey t := by
  generalize hcmd : RedisCmd.getdel k = cmd at h
  cases World.commandCaller h with
  | redeem hs hpc =>
    cases hcmd
    exact ⟨_, _, _, rfl, hs, hpc, rfl⟩
  | presence hp =>
    cases hp with
    | @update _ _ online _ _ => cases online <;> cases hcmd
    | _ => cases hcmd
  | allow hinit =>
    obtain ⟨_, _, _, rfl, -⟩ := World.allowCaller h hinit
    cases hcmd
  | _ => cases hcmd

/-- The event that logs a client in is its redeem. -/
theorem Stepped.loggedIn_cases (hstep : Stepped env w a w') {e : Event} (hlog : w'.log = e :: w.log)
    (h : e.loggedIn? n = some id) : e.task = .session n ∧ ∃ s t u, w.sessions n = some s ∧
      s.pc = .redeem t ∧ e.redeemed? t = some (some u) ∧ UUID.ofString u = some id := by
  have ha : ∀ op, e.what.effect = some op → w.awaits env e.task = some op := fun _ =>
    hstep.head_effect hlog
  obtain ⟨time, task, what⟩ := e
  unfold Event.loggedIn? at h
  split at h
  · rename_i htask
    refine ⟨htask, ?_⟩
    split at h
    · rename_i k reply hwhat
      simp only at hwhat htask
      subst hwhat
      obtain ⟨v, rfl, hid⟩ := Option.bind_eq_some_iff.mp h
      obtain ⟨m, s, t, htask', hs, hpc, rfl⟩ := World.getdelCaller (ha _ rfl)
      obtain rfl : n = m := by simpa using htask.symm.trans htask'
      exact ⟨s, t, v.decode, hs, hpc, by simp [Event.redeemed?], hid⟩
    · cases h
  · cases h

/-- As whom a client is logged in, is what its ticket was redeemed to. -/
def Logins (w : World) : Prop :=
  ∀ e ∈ w.log, ∀ n id, e.loggedIn? n = some id → RedeemedFor w.log n id

theorem Logins.of_reachable (h : Reachable env w) : Logins w := by
  refine h.invariant ?_ fun {w w' a} _ _ ih hstep => ?_
  · intro e he
    cases he
  · have hstep := World.stepped hstep
    intro e he n id hid
    rcases hstep.log_cases with hlog | ⟨e', hlog⟩
    · rw [hlog] at he ⊢
      exact ih e he n id hid
    · have hmono : w.log ⊆ w'.log := hstep.log_subset
      rw [hlog] at he
      rcases List.mem_cons.mp he with rfl | he
      · obtain ⟨htask, _, t, u, -, -, hred, hu⟩ := hstep.loggedIn_cases hlog hid
        exact ⟨u, ⟨e, hlog ▸ List.mem_cons_self, t, htask, hred⟩, hu⟩
      · exact (ih e he n id hid).mono hmono

theorem users_iff (h : Reachable env w) :
    w.service.users n = some id ↔ RedeemedFor w.log n id := by
  constructor
  · intro hid
    obtain ⟨e, he, hid⟩ := List.exists_of_findSome?_eq_some hid
    exact Logins.of_reachable h e he n id hid
  · rintro ⟨u, ⟨e, he, t, htask, hred⟩, hu⟩
    have hin : e.loggedIn? n = some id := (Event.loggedIn_of_redeemed htask hred).trans hu
    cases hfind : w.log.findSome? (·.loggedIn? n) with
    | none =>
      rw [List.findSome?_eq_none_iff] at hfind
      rw [hfind e he] at hin
      cases hin
    | some id' =>
      obtain ⟨e', he', hid'⟩ := List.exists_of_findSome?_eq_some hfind
      obtain ⟨u', hu', hid'⟩ := Logins.of_reachable h e' he' n id' hid'
      -- the entry that is found may be another one, but a session redeems one ticket
      obtain rfl := (OneTicket.of_reachable h).unique n u' u hu' ⟨e, he, t, htask, hred⟩
      exact hfind.trans (hid'.symm.trans hu)

/-! ## Steps of the service -/

/-- Whom a session marks read for, is whom its ticket was redeemed to. -/
def ActsAsUser (w : World) : Prop :=
  ∀ n s id, w.sessions n = some s → s.pc.id? = some id →
    ∃ u, s.pc.user? = some u ∧ UUID.ofString u = some id

theorem ActsAsUser.of_reachable (h : Reachable env w) : ActsAsUser w := by
  refine h.invariant (by simp [ActsAsUser, platform, World.empty]) fun {w w' a} _ _ ih hstep => ?_
  intro n s' id hs' hid
  cases (World.stepped hstep).session_cases hs' with
  | same hs _ => exact ih n s' id hs hid
  | new _ _ _ _ => simp [GatewayPc.id?] at hid
  | killed _ _ _ => simp [GatewayPc.id?] at hid
  | moved hs _ hadv _ _ =>
    cases hadv with
    | raised hn _ => simp [GatewayPc.id_raised hn] at hid
    | applied hn _ _ => simp [GatewayPc.id_raised hn] at hid
    | returned hn _ =>
      obtain ⟨u, hu⟩ := GatewayPc.id_user hid
      exact ⟨u, hu, GatewayPc.id_resume hn hid hu⟩

/-- Only a session marks as read, for its user. -/
theorem World.receiptCaller {task : TaskId} {k id : UUID}
    (h : w.awaits env task = some (.markRead k id)) :
    ∃ n s u, w.sessions n = some s ∧ s.pc = .readReceipt u id k := by
  cases World.awaiting h with
  | @session n s _ hs h =>
    obtain ⟨i, c, pc⟩ := s
    cases pc with
    | readReceipt u id k =>
      cases h
      exact ⟨n, _, u, hs, rfl⟩
    | _ => cases h
  | @request n r _ hr h =>
    obtain ⟨i, client, body, pc⟩ := r
    cases pc <;> cases h
  | @ticketRequest n r _ hr h =>
    obtain ⟨i, claims, token, pc⟩ := r
    cases pc <;> cases h
  | @subscriber i p _ hp h =>
    obtain ⟨_, pc, _⟩ := p
    cases pc <;> cases h
  | @lifespan i p _ hp h =>
    obtain ⟨pc, _, _⟩ := p
    cases pc <;> cases h
  | @liveness i p _ hp h =>
    obtain ⟨_, _, pc⟩ := p
    cases pc <;> cases h

/-! ## One step -/

/-- An event that clients take no notice of shows in the rows at most. -/
theorem service_unseen {e : Event} (hlog : w'.log = e :: w.log)
    (hlogin : ∀ n, e.loggedIn? n = none)
    (hsend : ∀ n frame, e.what.effect = some (.send n frame) → frame.plain = true) :
    w'.service = { w.service with
      accepted := w'.shared.db.envelopes
      read := w'.shared.db.readIds } := by
  have hcaught : ∀ n, e.caughtUp? n = none := fun n =>
    Event.caughtUp_eq_none fun es hes => by cases hsend n _ hes
  have hpushed : e.pushed? = none :=
    Event.pushed_eq_none fun n live hlive => by cases hsend n _ hlive
  rw [service_cons hlog]
  simp only [hlogin, hcaught, hpushed, Option.none_or, Option.toList_none, List.nil_append]

/-- A session that redeems logs in for the first time. -/
theorem login_allowed (h : Reachable env w) (hstep : Stepped env w a w') {e : Event}
    (hlog : w'.log = e :: w.log) (hid : e.loggedIn? n = some id)
    (hdb : w'.shared.db = w.shared.db) :
    Service.Allows w.service (.login n id) w'.service := by
  obtain ⟨htask, s, t, u, hs, hpc, hred, -⟩ := hstep.loggedIn_cases hlog hid
  have hfresh : w.service.users n = none := by
    -- a session that was logged in has its ticket behind it
    refine Option.eq_none_iff_forall_ne_some.mpr fun id' hid' => ?_
    obtain ⟨u', hu', -⟩ := (users_iff h).mp hid'
    obtain ⟨s', hs', hpc'⟩ := (OneTicket.of_reachable h).fresh n u' hu'
    obtain rfl := Option.some.inj (hs.symm.trans hs')
    exact hpc' t hpc
  have hsend : ∀ m frame, e.what.effect ≠ some (.send m frame) := by
    intro m frame heff
    rw [Event.loggedIn_eq_none (by simp [heff])] at hid
    cases hid
  have hother : ∀ m, m ≠ n → e.loggedIn? m = none := by
    intro m hm
    rw [Event.loggedIn?, if_neg]
    rw [htask]
    simpa using Ne.symm hm
  have hcaught : ∀ m, e.caughtUp? m = none := fun m => Event.caughtUp_eq_none fun _ => hsend m _
  have hpushed : e.pushed? = none := Event.pushed_eq_none fun m _ => hsend m _
  rw [service_cons hlog, or_eq_update hid hother]
  simp only [hcaught, hpushed, Option.none_or, Option.toList_none, List.nil_append, hdb]
  exact .login hfresh

/-- The view of a step that sends. -/
theorem service_sent {e : Event} {frame : Frame} (hlog : w'.log = e :: w.log)
    (heff : e.what.effect = some (.send n frame)) (hdb : w'.shared.db = w.shared.db) :
    w'.service = { w.service with
      caughtUp := fun m => (e.caughtUp? m).or (w.service.caughtUp m)
      pushed := e.pushed?.toList ++ w.service.pushed } := by
  have hlogin : ∀ m, e.loggedIn? m = none := fun m =>
    Event.loggedIn_eq_none (by simp [heff])
  rw [service_cons hlog, hdb]
  simp only [hlogin, Option.none_or]
  rfl

theorem addressed_of_redeemed (h : Reachable env w) {x : NotificationEnvelope}
    (hx : x ∈ w.shared.db.envelopes) (hn : RedeemedFor w.log n x.userId) :
    w.service.Addressed n x :=
  ⟨hx, (users_iff h).mpr hn⟩

/-- The backlog of a session is sent once, and its rows are the user's. -/
theorem catchUp_allowed (h' : Reachable env w') {e : Event}
    {es : List NotificationEnvelope} (hlog : w'.log = e :: w.log)
    (heff : e.what.effect = some (.send n (.backlog es))) (hdb : w'.shared.db = w.shared.db) :
    Service.Allows w.service (.catchUp n es) w'.service := by
  have he : e ∈ w'.log := hlog ▸ List.mem_cons_self
  have hview : w'.service = { w.service with
      caughtUp := Function.update w.service.caughtUp n (some es) } := by
    have hother : ∀ m, m ≠ n → e.caughtUp? m = none := fun m hm =>
      Event.caughtUp_eq_none fun es' hes' => by
        have heq := Option.some.inj (heff.symm.trans hes')
        exact hm (Op.send.inj heq).1.symm
    have hpushed : e.pushed? = none := Event.pushed_eq_none fun m live hlive => by
      cases heff.symm.trans hlive
    rw [service_sent hlog heff hdb, or_eq_update (Event.caughtUp_eq_some.mpr heff) hother, hpushed]
    rfl
  have hstored : ∀ x ∈ es, w'.service.Addressed n x := fun x hx => by
    obtain ⟨hrow, hred⟩ := (Routed.of_reachable h').sent e he n _ heff x hx
    exact addressed_of_redeemed h' hrow hred
  have hfirst : w.service.caughtUp n = none := by
    -- an earlier backlog on the socket would be a second one now
    have honce := (BacklogOnce.of_reachable h').once n
    rw [hlog, Each.cons_iff] at honce
    refine List.findSome?_eq_none_iff.mpr fun e' he' => ?_
    refine Option.eq_none_iff_forall_ne_some.mpr fun es' hes' => ?_
    have hintro := honce.1 (Event.introduces_iff.mpr ⟨es, heff⟩) e' he'
    rw [Event.introduces_iff.mpr ⟨es', Event.caughtUp_eq_some.mp hes'⟩] at hintro
    cases hintro
  have hdistinct : (es.map (·.notificationId)).Nodup := by
    have hq := Queried.of_reachable h'
    obtain ⟨q, hqlog, ns, hans, rfl⟩ := hq.sent e he n es heff
    obtain ⟨before, -, hrows⟩ := hq.answers.of_mem hqlog
    rw [List.map_map]
    exact (hrows n ns hans).1
  rw [hview] at hstored ⊢
  exact .catchUp hfirst hstored hdistinct

/-- A live notification reaches a socket of its user, and no socket twice. -/
theorem push_allowed (h' : Reachable env w') {e : Event} {live : LiveNotification}
    (hlog : w'.log = e :: w.log)
    (heff : e.what.effect = some (.send n (.notification live)))
    (hdb : w'.shared.db = w.shared.db) :
    ∃ x : NotificationEnvelope, Service.Allows w.service (.push n x.live) w'.service := by
  have he : e ∈ w'.log := hlog ▸ List.mem_cons_self
  obtain ⟨x, hx, rfl, hred⟩ := (Routed.of_reachable h').sent e he n _ heff
  have hview : w'.service = { w.service with pushed := (n, x.live) :: w.service.pushed } := by
    have hcaught : ∀ m, e.caughtUp? m = none := fun m =>
      Event.caughtUp_eq_none fun es hes => by cases heff.symm.trans hes
    rw [service_sent hlog heff hdb, Event.pushed_eq_some.mpr heff]
    simp only [hcaught, Option.none_or]
    rfl
  have haddressed := addressed_of_redeemed h' hx hred
  refine ⟨x, ?_⟩
  rw [hview] at haddressed ⊢
  refine .push haddressed fun live hlive hid => ?_
  -- both would have been delivered
  obtain ⟨e₀, he₀, hpushed⟩ := List.mem_filterMap.mp hlive
  have hold : e₀.delivers n x.notificationId = true :=
    Event.delivers_of_liveOn (Event.liveOn_eq_some.mpr
      (Event.frameOn_eq_some.mpr (Event.pushed_eq_some.mp hpushed))) hid
  have hnew : e.delivers n x.notificationId = true :=
    Event.delivers_of_liveOn (Event.liveOn_eq_some.mpr (Event.frameOn_eq_some.mpr heff)) rfl
  have hpos := List.countP_pos_iff.mpr ⟨e₀, he₀, hold⟩
  have honce := delivers_at_most_once h' n x.notificationId
  rw [hlog, List.countP_cons_of_pos hnew] at honce
  omega

/-! ## Writes -/

/-- The view of a step that only writes. -/
theorem service_written {e : Event} {op : Op} (hlog : w'.log = e :: w.log)
    (heff : e.what.effect = some op) (hget : ∀ k, op ≠ .redis (.getdel k))
    (hsend : ∀ m frame, op ≠ .send m frame) : w'.service = { w.service with
      accepted := w'.shared.db.envelopes
      read := w'.shared.db.readIds } :=
  service_unseen hlog
    (fun _ => Event.loggedIn_eq_none fun k hk => hget k (Option.some.inj (heff.symm.trans hk)))
    (fun m frame hf => absurd (Option.some.inj (heff.symm.trans hf)) (hsend m frame))

/-- A new row is accepted. -/
theorem accept_allowed {s : Service} {db : Database} {body : NotificationCreate} {t : Datetime}
    (haccepted : s.accepted = db.envelopes) (hread : s.read = db.readIds) :
    { s with accepted := (NotificationRepository.create db body t).1.envelopes
             read := (NotificationRepository.create db body t).1.readIds } = s ∨
      ∃ x, Service.Allows s (.accept x)
        { s with accepted := (NotificationRepository.create db body t).1.envelopes
                 read := (NotificationRepository.create db body t).1.readIds } := by
  rw [readIds_create, ← hread]
  cases hcreate : NotificationRepository.create db body t with
  | mk db' row =>
    cases row with
    | none =>
      left
      rw [(NotificationRepository.create_none hcreate).1, ← haccepted]
    | some row =>
      right
      obtain ⟨hnew, hrows, hid, -⟩ := NotificationRepository.create_some hcreate
      have henvelopes : db'.envelopes = s.accepted ++ [row.envelope] := by
        rw [haccepted, Database.envelopes, hrows, List.map_append]
        rfl
      refine ⟨row.envelope, ?_⟩
      rw [henvelopes]
      refine .accept ?_
      rw [haccepted, ← Database.ids_eq_envelopes, Notification.envelope_notificationId, hid]
      exact hnew

/-- A read receipt counts if the notification is the reader's. -/
theorem read_allowed (h : Reachable env w) {task : TaskId} {k id : UUID} {t : Nat}
    (ha : w.awaits env task = some (.markRead k id)) :
    { w.service with accepted := (NotificationRepository.markRead w.shared.db k id t).1.envelopes
                     read := (NotificationRepository.markRead w.shared.db k id t).1.readIds }
        = w.service ∨
      ∃ n, Service.Allows w.service (.read n k) { w.service with
        accepted := (NotificationRepository.markRead w.shared.db k id t).1.envelopes
        read := (NotificationRepository.markRead w.shared.db k id t).1.readIds } := by
  rcases readIds_markRead w.shared.db k id t with
    heq | ⟨⟨x, hx, rfl, rfl⟩, hread⟩
  · left
    rw [heq]
    rfl
  · right
    obtain ⟨n, s, u, hs, hpc⟩ := World.receiptCaller ha
    obtain ⟨v, hv, hvid⟩ := ActsAsUser.of_reachable h n s x.userId hs (by rw [hpc]; rfl)
    have hred := (Routed.of_reachable h).user n s v hs hv
    refine ⟨n, ?_⟩
    rw [hread, NotificationRepository.envelopes_markRead]
    exact .read (addressed_of_redeemed h hx ⟨v, hred, hvid⟩)

/-! ## The refinement -/

/-- An operation that took effect is a step of the service or none. -/
theorem effect_allowed (h : Reachable env w) (h' : Reachable env w') (hstep : Stepped env w a w')
    {e : Event} {op : Op} (hlog : w'.log = e :: w.log) (heff : e.what.effect = some op)
    (hdb : DatabaseCase w.shared w'.shared op) :
    w'.service = w.service ∨ ∃ b, Service.Allows w.service b w'.service := by
  have ha := hstep.head_effect hlog heff
  cases hdb with
  | @created body t hdb =>
    rw [service_written hlog heff (by simp) (by simp), hdb]
    exact (accept_allowed rfl rfl).imp_right fun ⟨x, hx⟩ => ⟨_, hx⟩
  | @delivered k hdb =>
    left
    rw [service_written hlog heff (by simp) (by simp), hdb,
      NotificationRepository.envelopes_markDeliveredLive, readIds_markDeliveredLive]
    rfl
  | @read k id hdb =>
    rw [service_written hlog heff (by simp) (by simp), hdb]
    exact (read_allowed h ha).imp_right fun ⟨n, hn⟩ => ⟨_, hn⟩
  | kept hdb =>
    -- the rows stay: it is a login, a frame with notifications, or nothing that clients see
    by_cases hlogin : ∃ n id, e.loggedIn? n = some id
    · obtain ⟨n, id, hid⟩ := hlogin
      exact .inr ⟨_, login_allowed h hstep hlog hid hdb⟩
    by_cases hsend : ∃ n frame, op = .send n frame ∧ frame.plain = false
    · obtain ⟨n, frame, rfl, hplain⟩ := hsend
      cases frame with
      | backlog es => exact .inr ⟨_, catchUp_allowed h' hlog heff hdb⟩
      | notification live =>
        obtain ⟨x, hx⟩ := push_allowed h' hlog heff hdb
        exact .inr ⟨_, hx⟩
      | rateLimited _ | error _ => cases hplain
    · left
      rw [service_unseen hlog, hdb]
      · rfl
      · exact fun n => Option.eq_none_iff_forall_ne_some.mpr fun id hid => hlogin ⟨n, id, hid⟩
      · intro n frame hf
        by_contra hplain
        exact hsend ⟨n, frame, Option.some.inj (heff.symm.trans hf), by simpa using hplain⟩

theorem service_step (h : Reachable env w) (h' : Reachable env w') (hstep : Stepped env w a w') :
    w'.service = w.service ∨ ∃ b, Service.Allows w.service b w'.service := by
  obtain ⟨sh, log, hsh, hlog, ht⟩ := hstep.touched
  cases ht with
  | tick | expireDedup | crash => exact .inl (service_same hlog (by rw [hsh]; rfl))
  | started _ => exact .inl (service_same hlog (by rw [hsh]))
  | raised _ _ =>
    left
    rw [service_unseen hlog, hsh]
    · rfl
    · exact fun n => Event.loggedIn_eq_none nofun
    · exact fun n frame => nofun
  | returned _ hx => exact effect_allowed h h' hstep hlog rfl (hsh ▸ Shared.exec_db hx)
  | applied _ _ hx => exact effect_allowed h h' hstep hlog rfl (hsh ▸ Shared.exec_db hx)

theorem service_empty : World.empty.service = .empty := by
  simp [World.service, World.empty, Service.empty, Database.envelopes, Database.readIds]

theorem platform_refines (env : Env) :
    (platform env).Refines (fun _ _ => True) Service.spec World.service where
  init := service_empty
  step h _ hstep := service_step h (Reachable.step h hstep) (World.stepped hstep)

/-- The view of the world was reached by steps of the service, and goes on by them. -/
structure ServedAs (env : Env) (w : World) : Prop where
  run : ∃ bs, Service.spec.Run bs w.service
  step : ∀ a w', w.step env a = some w' → w'.service = w.service ∨
    ∃ b, Service.Allows w.service b w'.service
  sound : w.service.Sound

theorem platform_serves (h : Reachable env w) : ServedAs env w := by
  obtain ⟨bs, hbs⟩ := (platform_refines env).run h
  exact ⟨⟨bs, hbs⟩, fun a w' hstep => (platform_refines env).step h trivial hstep,
    Service.sound_of_run hbs⟩

theorem platform_serves_delivery : ∃ w, (platform plainEnv).run .empty deliveryRun = some w ∧
    w.service.pushed.length = 1 ∧ ServedAs plainEnv w := by
  obtain ⟨w, hrun, hpushed⟩ : ∃ w, (platform plainEnv).run .empty deliveryRun = some w ∧
      w.service.pushed.length = 1 := ⟨_, rfl, rfl⟩
  exact ⟨w, hrun, hpushed, platform_serves (.of_run hrun)⟩

end RealtimeNotify.App
