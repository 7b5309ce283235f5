import RealtimeNotify.App.Frames
import RealtimeNotify.Lib.History

/-!
# Creation and publication of notifications

The Redis guard may be stale or gone. What keeps a notification id to one row,
one acknowledgement and one message is the insertion: a request that got its row
back is the only one that ever does, and only it goes on to publish.
-/

namespace RealtimeNotify.App

open RealtimeNotify.Lib RealtimeNotify.Python

variable {env : Env} {w w' : World} {a : Action}

/-! ## The events of a notification -/

/-- The message an event put on a channel: the user it names and the object. -/
def Event.publication? (e : Event) : Option (String × LiveNotification) :=
  match e.what.effect with
  | some (.publish _ u notification) => some (u, notification)
  | _ => none

def Event.publishes (n : UUID) (e : Event) : Bool :=
  e.publication?.any (·.2.notificationId = n.str)

/-- The number of messages published for `n`. -/
def publications (n : UUID) (log : List Event) : Nat := log.countP (·.publishes n)

theorem Event.publishes_of_none {e : Event} (h : e.publication? = none) (n : UUID) :
    e.publishes n = false := by
  simp [publishes, h]

theorem publications_cons_none {e : Event} {log : List Event} (h : e.publication? = none)
    (n : UUID) : publications n (e :: log) = publications n log := by
  simp [publications, Event.publishes_of_none h]

/-! ## What a step does -/

/-- The requests after a step: new, or with nothing new behind them. -/
def RequestsWeaker (w w' : World) : Prop :=
  ∀ m r', w'.requests m = some r' → r'.pc = .allow ∨
    ∃ r, w.requests m = some r ∧ r.body = r'.body ∧ r'.pc.Weaker r.pc

/-- Request `m` moved to `pc`, and nothing else did. -/
def RequestMoved (w w' : World) (m : Nat) (r : PostRequest) (pc : CreatePc) : Prop :=
  w'.requests = Function.update w.requests m (some { r with pc })

inductive CreationCase (w w' : World) : Prop where
  | quiet : w'.shared.db.records = w.shared.db.records →
      (w'.log = w.log ∨ ∃ e, e.publication? = none ∧ w'.log = e :: w.log) →
      RequestsWeaker w w' → CreationCase w w'
  | inserted {m r e pc row} : w.requests m = some r → r.pc = .create →
      r.body.notificationId ∉ w.shared.db.ids → row.notificationId = r.body.notificationId →
      row.userId = r.body.userId →
      w'.shared.db.records = w.shared.db.records ++ [(row.envelope, false)] →
      e.task = .request m → e.what.effect = some (.create r.body) → w'.log = e :: w.log →
      RequestMoved w w' m r pc → (pc = .markSeen (some row) ∧
        e.what = .returned (.create r.body) (some row) ∨ pc = .raised) → CreationCase w w'
  | published {m r e pc row owner} : w.requests m = some r → r.pc = .publish row owner →
      w'.shared.db.records = w.shared.db.records →
      e.publication? = some (r.body.userId.str, row.envelope.live) → w'.log = e :: w.log →
      RequestMoved w w' m r pc → (pc = .markDelivered row ∨ pc = .raised) → CreationCase w w'
  | delivered {m r e pc row} : w.requests m = some r → r.pc = .markDelivered row →
      w'.shared.db.records = (w.shared.db.records.map fun p =>
        if p.1.notificationId = row.notificationId then (p.1, true) else p) →
      e.publication? = none → w'.log = e :: w.log → RequestMoved w w' m r pc →
      (pc = .returned ⟨r.body.notificationId, true, true⟩ ∨ pc = .raised) → CreationCase w w'

theorem RequestsWeaker.of_same (h : w'.requests = w.requests) : RequestsWeaker w w' := by
  intro m r' hr'
  exact .inr ⟨r', h ▸ hr', rfl, .refl _⟩

theorem RequestMoved.weaker {m : Nat} {r : PostRequest} {pc : CreatePc}
    (h : RequestMoved w w' m r pc) (hr : w.requests m = some r) (hpc : pc.Weaker r.pc) :
    RequestsWeaker w w' := by
  intro k r' hr'
  rw [h] at hr'
  by_cases hk : k = m
  · subst hk
    obtain rfl := by simpa using hr'
    exact .inr ⟨r, hr, rfl, hpc⟩
  · exact .inr ⟨r', by simpa [hk] using hr', rfl, .refl _⟩

theorem Event.publication_effect {e : Event} {op : Op} (he : e.what.effect = some op)
    (hop : op.ofCreation = false) : e.publication? = none := by
  rw [publication?, he]
  cases op <;> first | rfl | simp [Op.ofCreation] at hop

/-- A step of a task that is no request. -/
theorem CreationCase.of_task {Pc : Type} {id : TaskId} {next : Step Pc} {o : Outcome Choice}
    {sh : Shared} {pc : Pc} {e : Happened Op Op.Reply}
    (ha : w.awaits env id = next.op?) (hid : ∀ m, id ≠ .request m)
    (h : Advances semantics w.shared next o sh pc e) (hsh : w'.shared = sh)
    (hlog : w'.log = ⟨w.shared.now, id, e⟩ :: w.log) (hreq : w'.requests = w.requests) :
    CreationCase w w' := by
  have hquiet : ∀ op, next.op? = some op → op.ofCreation = false := by
    intro op hop
    by_contra hc
    cases World.creationCaller (ha.trans hop) (by simpa using hc) with
    | create _ _ | publish _ _ | markDelivered _ _ => exact hid _ rfl
  cases h with
  | returned hn hx =>
    have hop := hquiet _ (by rw [hn]; rfl)
    refine .quiet ?_ (.inr ⟨_, Event.publication_effect rfl hop, hlog⟩) (.of_same hreq)
    rw [hsh, Shared.exec_records_frame hx hop]
  | raised hn hf =>
    exact .quiet (by rw [hsh]) (.inr ⟨_, rfl, hlog⟩) (.of_same hreq)
  | applied hn hf hx =>
    have hop := hquiet _ (by rw [hn]; rfl)
    refine .quiet ?_ (.inr ⟨_, Event.publication_effect rfl hop, hlog⟩) (.of_same hreq)
    rw [hsh, Shared.exec_records_frame hx hop]

/-- The insertion, whether or not its reply arrives. -/
theorem CreationCase.of_create {m : Nat} {r : PostRequest} {c : Choice} {sh : Shared}
    {reply : Option Notification} {pc : CreatePc} {e : Happened Op Op.Reply}
    (hr : w.requests m = some r) (hpc : r.pc = .create)
    (hx : w.shared.exec (.create r.body) c = some (sh, reply)) (hsh : w'.shared = sh)
    (he : e.effect = some (.create r.body))
    (hlog : w'.log = ⟨w.shared.now, .request m, e⟩ :: w.log) (hreq : RequestMoved w w' m r pc)
    (hto : pc = .markSeen reply ∧ e = .returned (.create r.body) reply ∨ pc = .raised) :
    CreationCase w w' := by
  obtain ⟨t, hcreate⟩ := Shared.exec_create hx
  have hnone : Event.publication? ⟨w.shared.now, .request m, e⟩ = none := by
    rw [Event.publication?, he]
  cases reply with
  | none =>
    obtain ⟨hdb, -⟩ := NotificationRepository.create_none hcreate
    refine .quiet (by rw [hsh, hdb]) (.inr ⟨_, hnone, hlog⟩) (hreq.weaker hr ?_)
    rcases hto with ⟨rfl, -⟩ | rfl <;> exact .of_blank rfl rfl
  | some row =>
    obtain ⟨hnew, hrows, hid, huser, -, -, hlive, -⟩ := NotificationRepository.create_some hcreate
    refine .inserted hr hpc hnew hid huser ?_ rfl he hlog hreq hto
    rw [hsh, Database.records, hrows, Database.records, List.map_append]
    simp [Notification.record, hlive]

/-- A creation's call that took effect, whether or not its reply arrives. -/
theorem CreationCase.of_call {m : Nat} {r : PostRequest} {op : Op} {k : op.Reply → CreatePc}
    {failed : CreatePc} {c : Choice} {sh : Shared} {reply : op.Reply} {pc : CreatePc}
    {e : Happened Op Op.Reply} (hr : w.requests m = some r)
    (hn : r.pc.next env r.client r.body = .call op k failed) (hop : op.ofCreation = true)
    (hx : w.shared.exec op c = some (sh, reply)) (hsh : w'.shared = sh)
    (he : e.effect = some op) (hlog : w'.log = ⟨w.shared.now, .request m, e⟩ :: w.log)
    (hreq : RequestMoved w w' m r pc)
    (hto : pc = k reply ∧ e = .returned op reply ∨ pc = .raised) : CreationCase w w' := by
  cases hpc : r.pc with
  | create =>
    rw [hpc] at hn
    cases hn
    exact .of_create hr hpc hx hsh he hlog hreq hto
  | publish row owner =>
    rw [hpc] at hn
    cases hn
    obtain ⟨rfl, -⟩ := by simpa [Shared.exec] using hx
    refine .published hr hpc (by rw [hsh, Shared.publish_db]) ?_ hlog hreq (hto.imp_left And.left)
    rw [Event.publication?, he]
  | markDelivered row =>
    rw [hpc] at hn
    cases hn
    obtain ⟨rfl, -⟩ := by simpa [Shared.exec] using hx
    refine .delivered hr hpc ?_ ?_ hlog hreq (hto.imp_left And.left)
    · rw [hsh, NotificationRepository.records_markDeliveredLive]
    · rw [Event.publication?, he]
  | _ =>
    rw [hpc] at hn
    cases hn <;> simp [Op.ofCreation] at hop

theorem CreationCase.of_request {m : Nat} {r : PostRequest} {o : Outcome Choice} {sh : Shared}
    {pc : CreatePc} {e : Happened Op Op.Reply} (hr : w.requests m = some r)
    (h : Advances semantics w.shared (r.pc.next env r.client r.body) o sh pc e)
    (hsh : w'.shared = sh) (hlog : w'.log = ⟨w.shared.now, .request m, e⟩ :: w.log)
    (hreq : RequestMoved w w' m r pc) : CreationCase w w' := by
  have hraised : CreatePc.Weaker .raised r.pc := .of_blank rfl rfl
  cases h with
  | @raised op k pc hn hf =>
    obtain rfl := CreatePc.raised_eq hn
    exact .quiet (by rw [hsh]) (.inr ⟨_, rfl, hlog⟩) (hreq.weaker hr hraised)
  | @returned op k _ c _ reply hn hx =>
    cases hop : op.ofCreation with
    | true => exact .of_call hr hn hop hx hsh rfl hlog hreq (.inl ⟨rfl, rfl⟩)
    | false =>
      refine .quiet ?_ (.inr ⟨_, Event.publication_effect rfl hop, hlog⟩)
        (hreq.weaker hr (CreatePc.weaker_next hn hop))
      rw [hsh, Shared.exec_records_frame hx hop]
  | @applied op k pc c _ reply hn hf hx =>
    obtain rfl := CreatePc.raised_eq hn
    cases hop : op.ofCreation with
    | true => exact .of_call hr hn hop hx hsh rfl hlog hreq (.inr rfl)
    | false =>
      refine .quiet ?_ (.inr ⟨_, Event.publication_effect rfl hop, hlog⟩) (hreq.weaker hr hraised)
      rw [hsh, Shared.exec_records_frame hx hop]

theorem Stepped.creationCase (h : Stepped env w a w') : CreationCase w w' := by
  cases h with
  | tick => exact .quiet rfl (.inl rfl) (.of_same rfl)
  | expireDedup => exact .quiet rfl (.inl rfl) (.of_same rfl)
  | boot _ => exact .quiet rfl (.inl rfl) (.of_same rfl)
  | connect _ _ => exact .quiet rfl (.inl rfl) (.of_same rfl)
  | issue _ _ => exact .quiet rfl (.inl rfl) (.of_same rfl)
  | @crash i _ =>
    refine .quiet rfl (.inl rfl) fun m r' hr' => .inr ?_
    simp only [World.crash, World.killAll, Option.map_eq_some_iff] at hr'
    obtain ⟨r, hr, rfl⟩ := hr'
    refine ⟨r, hr, ?_⟩
    split
    · exact ⟨rfl, CreatePc.weaker_kill _⟩
    · exact ⟨rfl, .refl _⟩
  | @post n i client body _ hn =>
    refine .quiet rfl (.inl rfl) fun m r' hr' => ?_
    by_cases hm : m = n
    · subst hm
      obtain rfl := by simpa [World.setRequest] using hr'
      exact .inl rfl
    · exact .inr ⟨r', by simpa [World.setRequest, hm] using hr', rfl, .refl _⟩
  | session hs hadv => exact .of_task (World.awaits_session hs) (by simp) hadv rfl rfl rfl
  | request hr hadv => exact .of_request hr hadv rfl rfl rfl
  | ticketRequest hr hadv =>
    exact .of_task (World.awaits_ticketRequest hr) (by simp) hadv rfl rfl rfl
  | subscriber hp _ hadv =>
    exact .of_task (World.awaits_subscriber env hp) (by simp) hadv rfl rfl rfl
  | lifespan hp hadv => exact .of_task (World.awaits_lifespan hp) (by simp) hadv rfl rfl rfl
  | liveness hp _ hadv => exact .of_task (World.awaits_liveness hp) (by simp) hadv rfl rfl rfl

/-! ## The invariant -/

/-- An event that gave request `m` its row. -/
def Creates (log : List Event) (m : Nat) (body : NotificationCreate) (row : Notification) :
    Prop :=
  ∃ e ∈ log, e.task = .request m ∧ e.what = .returned (.create body) (some row)

/-- The message has the five fields of the row, the ids and the time as text. -/
structure LiveNotification.Shows (live : LiveNotification) (row : NotificationEnvelope) : Prop where
  notificationId : live.notificationId = row.notificationId.str
  userId : live.userId = row.userId.str
  type : live.type = row.type
  payload : live.payload = row.payload
  createdAt : live.createdAt = row.createdAt.isoformat

theorem NotificationEnvelope.live_shows (row : NotificationEnvelope) : row.live.Shows row :=
  ⟨rfl, rfl, rfl, rfl, rfl⟩

/-- A message was published after its row was committed, and carries it. -/
def Carried (db : Database) (e : Event) (before : List Event) : Prop :=
  ∀ u notification, e.publication? = some (u, notification) →
    ∃ m body row, Creates before m body row ∧ row.envelope ∈ db.envelopes ∧
      notification.Shows row.envelope ∧ u = row.userId.str

theorem Carried.of_none {db : Database} {e : Event} {before : List Event}
    (h : e.publication? = none) : Carried db e before := by
  intro u notification he
  simp [h] at he

theorem Carried.mono {db db' : Database} {e : Event} {before : List Event}
    (h : Carried db e before) (hdb : ∀ n ∈ db.envelopes, n ∈ db'.envelopes) :
    Carried db' e before := by
  intro u notification he
  obtain ⟨m, body, row, hc, hmem, hn, hu⟩ := h u notification he
  exact ⟨m, body, row, hc, hdb _ hmem, hn, hu⟩

/-- What is known about insertions, publications and marks. -/
structure Books (w : World) : Prop where
  ids : w.shared.db.ids.Nodup
  /-- a request past an insertion has a row, -/
  stored : ∀ m r, w.requests m = some r → r.pc.inserted = true →
    r.body.notificationId ∈ w.shared.db.ids
  /-- and is the only one for its id -/
  only : ∀ m r m' r', w.requests m = some r → w.requests m' = some r' → r.pc.inserted = true →
    r'.pc.inserted = true → r.body.notificationId = r'.body.notificationId → m = m'
  row : ∀ m r row, w.requests m = some r → r.pc.row? = some row →
    row.envelope ∈ w.shared.db.envelopes ∧ row.notificationId = r.body.notificationId ∧
      row.userId = r.body.userId ∧ Creates w.log m r.body row
  fresh : ∀ n, n ∉ w.shared.db.ids → publications n w.log = 0
  pending : ∀ m r, w.requests m = some r → r.pc.unpublished = true →
    publications r.body.notificationId w.log = 0
  once : ∀ n, publications n w.log ≤ 1
  delivering : ∀ m r row, w.requests m = some r → r.pc = .markDelivered row →
    publications row.notificationId w.log = 1
  delivered : ∀ p ∈ w.shared.db.records, p.2 = true → publications p.1.notificationId w.log = 1
  carried : Each (Carried w.shared.db) w.log

theorem Books.init : Books .empty where
  ids := by simp [World.empty, Database.ids]
  stored := by simp [World.empty]
  only := by simp [World.empty]
  row := by simp [World.empty]
  fresh := by simp [World.empty, publications]
  pending := by simp [World.empty]
  once := by simp [World.empty, publications]
  delivering := by simp [World.empty]
  delivered := by simp [World.empty, Database.records]
  carried := by simp [World.empty]

theorem Creates.cons {e : Event} {log : List Event} {m : Nat} {body : NotificationCreate}
    {row : Notification} (h : Creates log m body row) : Creates (e :: log) m body row := by
  obtain ⟨e', he', h⟩ := h
  exact ⟨e', List.mem_cons_of_mem _ he', h⟩

/-- A step with no insertion and no publication. -/
theorem Books.quiet (h : Books w) (henv : w'.shared.db.envelopes = w.shared.db.envelopes)
    (hdel : ∀ p ∈ w'.shared.db.records, p.2 = true →
      publications p.1.notificationId w.log = 1)
    (hlog : w'.log = w.log ∨ ∃ e, e.publication? = none ∧ w'.log = e :: w.log)
    (hreq : RequestsWeaker w w') : Books w' := by
  have hids : w'.shared.db.ids = w.shared.db.ids := by
    rw [Database.ids_eq_envelopes, henv, Database.ids_eq_envelopes]
  have hpub : ∀ n, publications n w'.log = publications n w.log := by
    intro n
    rcases hlog with hlog | ⟨e, he, hlog⟩
    · rw [hlog]
    · rw [hlog, publications_cons_none he]
  have hcre : ∀ {m body row}, Creates w.log m body row → Creates w'.log m body row := by
    intro m body row hc
    rcases hlog with hlog | ⟨e, -, hlog⟩
    · rwa [hlog]
    · rw [hlog]
      exact hc.cons
  have hback : ∀ {m r'}, w'.requests m = some r' → r'.pc ≠ .allow →
      ∃ r, w.requests m = some r ∧ r.body = r'.body ∧ r'.pc.Weaker r.pc := fun hr' hne =>
    (hreq _ _ hr').resolve_left hne
  have hins : ∀ {m r'}, w'.requests m = some r' → r'.pc.inserted = true →
      ∃ r, w.requests m = some r ∧ r.body = r'.body ∧ r.pc.inserted = true := by
    intro m r' hr' hi
    obtain ⟨r, hr, hb, hw⟩ := hback hr' fun hp => by simp [hp, CreatePc.inserted] at hi
    exact ⟨r, hr, hb, hw.inserted hi⟩
  constructor
  · rw [hids]
    exact h.ids
  · intro m r' hr' hi
    obtain ⟨r, hr, hb, hi⟩ := hins hr' hi
    rw [hids, ← hb]
    exact h.stored m r hr hi
  · intro m r₁' m' r₂' hr₁ hr₂ hi₁ hi₂ hb
    obtain ⟨r₁, hr₁, hb₁, hi₁⟩ := hins hr₁ hi₁
    obtain ⟨r₂, hr₂, hb₂, hi₂⟩ := hins hr₂ hi₂
    exact h.only m r₁ m' r₂ hr₁ hr₂ hi₁ hi₂ (by rw [hb₁, hb₂, hb])
  · intro m r' row hr' hrow
    obtain ⟨r, hr, hb, hw⟩ := hback hr' fun hp => by simp [hp, CreatePc.row?] at hrow
    obtain ⟨hmem, hid, huser, hcreated⟩ := h.row m r row hr (hw.row row hrow)
    rw [henv, ← hb]
    exact ⟨hmem, hid, huser, hcre hcreated⟩
  · intro n hn
    rw [hpub]
    exact h.fresh n (hids ▸ hn)
  · intro m r' hr' hu
    obtain ⟨r, hr, hb, hw⟩ := hback hr' fun hp => by simp [hp, CreatePc.unpublished] at hu
    rw [hpub, ← hb]
    exact h.pending m r hr (hw.unpublished hu)
  · intro n
    rw [hpub]
    exact h.once n
  · intro m r' row hr' hd
    obtain ⟨r, hr, -, hw⟩ := hback hr' fun hp => by simp [hp] at hd
    rw [hpub]
    exact h.delivering m r row hr (hw.delivering row hd)
  · intro p hp hlive
    rw [hpub]
    exact hdel p hp hlive
  · have hold : Each (Carried w'.shared.db) w.log :=
      h.carried.mono fun e before hc => hc.mono (by simp [henv])
    rcases hlog with hlog | ⟨e, he, hlog⟩
    · rwa [hlog]
    · rw [hlog, Each.cons_iff]
      exact ⟨.of_none he, hold⟩

theorem RequestMoved.cases {m k : Nat} {r r' : PostRequest} {pc : CreatePc}
    (h : RequestMoved w w' m r pc) (hr' : w'.requests k = some r') :
    k = m ∧ r' = { r with pc } ∨ k ≠ m ∧ w.requests k = some r' := by
  rw [h] at hr'
  by_cases hk : k = m
  · subst hk
    exact .inl ⟨rfl, by simpa [eq_comm] using hr'⟩
  · exact .inr ⟨hk, by simpa [hk] using hr'⟩

theorem Books.insert (h : Books w) {m : Nat} {r : PostRequest} {e : Event} {pc : CreatePc}
    {row : Notification} (hr : w.requests m = some r)
    (hnew : r.body.notificationId ∉ w.shared.db.ids)
    (hid : row.notificationId = r.body.notificationId) (huser : row.userId = r.body.userId)
    (hrec : w'.shared.db.records = w.shared.db.records ++ [(row.envelope, false)])
    (htask : e.task = .request m) (heff : e.what.effect = some (.create r.body))
    (hlog : w'.log = e :: w.log) (hreq : RequestMoved w w' m r pc)
    (hto : pc = .markSeen (some row) ∧ e.what = .returned (.create r.body) (some row) ∨
      pc = .raised) : Books w' := by
  have he : e.publication? = none := by rw [Event.publication?, heff]
  have hids : w'.shared.db.ids = w.shared.db.ids ++ [r.body.notificationId] := by
    rw [Database.ids_eq_records, hrec, Database.ids_eq_records, List.map_append, ← hid]
    rfl
  have henv : w'.shared.db.envelopes = w.shared.db.envelopes ++ [row.envelope] := by
    rw [Database.envelopes_eq_records, hrec, Database.envelopes_eq_records, List.map_append]
    rfl
  have hpub : ∀ n, publications n w'.log = publications n w.log := fun n => by
    rw [hlog, publications_cons_none he]
  constructor
  · rw [hids]
    exact List.Nodup.append h.ids (List.nodup_singleton _) (by simpa using hnew)
  · intro k r' hr' hi
    rw [hids]
    rcases hreq.cases hr' with ⟨rfl, rfl⟩ | ⟨-, hr'⟩
    · simp
    · exact List.mem_append_left _ (h.stored k r' hr' hi)
  · intro k r₁ k' r₂ hr₁ hr₂ hi₁ hi₂ hb
    rcases hreq.cases hr₁ with ⟨rfl, rfl⟩ | ⟨-, hr₁⟩
    · rcases hreq.cases hr₂ with ⟨rfl, rfl⟩ | ⟨-, hr₂⟩
      · rfl
      · exact absurd (hb ▸ h.stored k' r₂ hr₂ hi₂) hnew
    · rcases hreq.cases hr₂ with ⟨rfl, rfl⟩ | ⟨-, hr₂⟩
      · exact absurd (hb ▸ h.stored k r₁ hr₁ hi₁) hnew
      · exact h.only k r₁ k' r₂ hr₁ hr₂ hi₁ hi₂ hb
  · intro k r' row' hr' hrow
    rw [henv, hlog]
    rcases hreq.cases hr' with ⟨rfl, rfl⟩ | ⟨-, hr'⟩
    · rcases hto with ⟨rfl, hwhat⟩ | rfl
      · obtain rfl := by simpa [CreatePc.row?] using hrow
        exact ⟨by simp, hid, huser, e, by simp, htask, hwhat⟩
      · simp [CreatePc.row?] at hrow
    · obtain ⟨hmem, hid, huser, hcreated⟩ := h.row k r' row' hr' hrow
      exact ⟨List.mem_append_left _ hmem, hid, huser, hcreated.cons⟩
  · intro n hn
    rw [hpub]
    refine h.fresh n fun hmem => hn ?_
    rw [hids]
    exact List.mem_append_left _ hmem
  · intro k r' hr' hu
    rw [hpub]
    rcases hreq.cases hr' with ⟨rfl, rfl⟩ | ⟨-, hr'⟩
    · exact h.fresh _ hnew
    · exact h.pending k r' hr' hu
  · intro n
    rw [hpub]
    exact h.once n
  · intro k r' row' hr' hd
    rw [hpub]
    rcases hreq.cases hr' with ⟨rfl, rfl⟩ | ⟨-, hr'⟩
    · rcases hto with ⟨rfl, -⟩ | rfl <;> simp at hd
    · exact h.delivering k r' row' hr' hd
  · intro p hp hlive
    rw [hpub]
    rw [hrec, List.mem_append, List.mem_singleton] at hp
    rcases hp with hp | rfl
    · exact h.delivered p hp hlive
    · simp at hlive
  · rw [hlog, Each.cons_iff]
    refine ⟨.of_none he, h.carried.mono fun e before hc => hc.mono fun n hn => ?_⟩
    rw [henv]
    exact List.mem_append_left _ hn

theorem Event.publishes_row {e : Event} {u : String} {row : Notification}
    (he : e.publication? = some (u, row.envelope.live)) (n : UUID) :
    e.publishes n = decide (row.notificationId = n) := by
  simp [publishes, he, NotificationEnvelope.live]

theorem Books.publish (h : Books w) {m : Nat} {r : PostRequest} {e : Event} {pc : CreatePc}
    {row : Notification} {owner : String} (hr : w.requests m = some r)
    (hpc : r.pc = .publish row owner) (hrec : w'.shared.db.records = w.shared.db.records)
    (he : e.publication? = some (r.body.userId.str, row.envelope.live))
    (hlog : w'.log = e :: w.log) (hreq : RequestMoved w w' m r pc)
    (hto : pc = .markDelivered row ∨ pc = .raised) : Books w' := by
  obtain ⟨hmem, hid, huser, hcreated⟩ := h.row m r row hr (by rw [hpc]; rfl)
  have hinserted : r.pc.inserted = true := by rw [hpc]; rfl
  have hzero : publications row.notificationId w.log = 0 := by
    rw [hid]
    exact h.pending m r hr (by rw [hpc]; rfl)
  have hids : w'.shared.db.ids = w.shared.db.ids := by
    rw [Database.ids_eq_records, hrec, Database.ids_eq_records]
  have henv : w'.shared.db.envelopes = w.shared.db.envelopes := by
    rw [Database.envelopes_eq_records, hrec, Database.envelopes_eq_records]
  have hself : publications row.notificationId w'.log = 1 := by
    simp only [publications] at hzero
    simp [hlog, publications, Event.publishes_row he, hzero]
  have hne : ∀ n, n ≠ row.notificationId → publications n w'.log = publications n w.log := by
    intro n hn
    simp [hlog, publications, Event.publishes_row he, Ne.symm hn]
  -- the moved request is past its insertion as before, and no other has its id
  have hother : ∀ {k r'}, k ≠ m → w.requests k = some r' → r'.pc.inserted = true →
      r'.body.notificationId ≠ row.notificationId := by
    intro k r' hk hr' hi heq
    exact hk (h.only k r' m r hr' hr hi hinserted (heq.trans hid))
  constructor
  · rw [hids]
    exact h.ids
  · intro k r' hr' hi
    rw [hids]
    rcases hreq.cases hr' with ⟨rfl, rfl⟩ | ⟨-, hr'⟩
    · exact h.stored k r hr hinserted
    · exact h.stored k r' hr' hi
  · intro k r₁ k' r₂ hr₁ hr₂ hi₁ hi₂ hb
    rcases hreq.cases hr₁ with ⟨rfl, rfl⟩ | ⟨-, hr₁⟩
    · rcases hreq.cases hr₂ with ⟨rfl, rfl⟩ | ⟨-, hr₂⟩
      · rfl
      · exact h.only k r k' r₂ hr hr₂ hinserted hi₂ hb
    · rcases hreq.cases hr₂ with ⟨rfl, rfl⟩ | ⟨-, hr₂⟩
      · exact h.only k r₁ k' r hr₁ hr hi₁ hinserted hb
      · exact h.only k r₁ k' r₂ hr₁ hr₂ hi₁ hi₂ hb
  · intro k r' row' hr' hrow
    rw [henv, hlog]
    rcases hreq.cases hr' with ⟨rfl, rfl⟩ | ⟨-, hr'⟩
    · rcases hto with rfl | rfl
      · obtain rfl := by simpa [CreatePc.row?] using hrow
        exact ⟨hmem, hid, huser, hcreated.cons⟩
      · simp [CreatePc.row?] at hrow
    · obtain ⟨hmem, hid, huser, hcreated⟩ := h.row k r' row' hr' hrow
      exact ⟨hmem, hid, huser, hcreated.cons⟩
  · intro n hn
    rw [hids] at hn
    rw [hne n fun heq => hn (heq ▸ Database.mem_ids_of_mem_envelopes hmem)]
    exact h.fresh n hn
  · intro k r' hr' hu
    rcases hreq.cases hr' with ⟨rfl, rfl⟩ | ⟨hk, hr'⟩
    · rcases hto with rfl | rfl <;> simp [CreatePc.unpublished] at hu
    · rw [hne _ (hother hk hr' (CreatePc.inserted_of_unpublished hu))]
      exact h.pending k r' hr' hu
  · intro n
    by_cases hn : n = row.notificationId
    · rw [hn, hself]
    · rw [hne n hn]
      exact h.once n
  · intro k r' row' hr' hd
    by_cases hn : row'.notificationId = row.notificationId
    · rw [hn, hself]
    · rw [hne _ hn]
      rcases hreq.cases hr' with ⟨rfl, rfl⟩ | ⟨-, hr'⟩
      · rcases hto with rfl | rfl
        · obtain rfl := by simpa using hd
          exact absurd rfl hn
        · simp at hd
      · exact h.delivering k r' row' hr' hd
  · intro p hp hlive
    rw [hrec] at hp
    by_cases hn : p.1.notificationId = row.notificationId
    · rw [hn, hself]
    · rw [hne _ hn]
      exact h.delivered p hp hlive
  · rw [hlog, Each.cons_iff]
    constructor
    · intro u notification he'
      obtain ⟨rfl, rfl⟩ := by simpa [he] using he'
      exact ⟨m, r.body, row, hcreated, by rwa [henv], row.envelope.live_shows, by rw [huser]⟩
    · exact h.carried.mono fun e before hc => hc.mono (by simp [henv])

theorem Books.step (h : Books w) (hstep : Stepped env w a w') : Books w' := by
  cases hstep.creationCase with
  | quiet hrec hlog hreq =>
    refine h.quiet ?_ (fun p hp hlive => h.delivered p (hrec ▸ hp) hlive) hlog hreq
    rw [Database.envelopes_eq_records, hrec, Database.envelopes_eq_records]
  | inserted hr _ hnew hid huser hrec htask he hlog hreq hto =>
    exact h.insert hr hnew hid huser hrec htask he hlog hreq hto
  | published hr hpc hrec he hlog hreq hto => exact h.publish hr hpc hrec he hlog hreq hto
  | @delivered m r e pc row hr hpc hrec he hlog hreq hto =>
    refine h.quiet ?_ ?_ (.inr ⟨e, he, hlog⟩) (hreq.weaker hr ?_)
    · exact NotificationRepository.envelopes_of_marked hrec
    · intro p' hp' hlive
      rw [hrec] at hp'
      obtain ⟨p, hp, rfl⟩ := List.mem_map.mp hp'
      by_cases hn : p.1.notificationId = row.notificationId
      · simpa [hn] using h.delivering m r row hr hpc
      · simp only [hn, if_false] at hlive ⊢
        exact h.delivered p hp hlive
    · rcases hto with rfl | rfl
      · rw [hpc]
        constructor <;> simp [CreatePc.inserted, CreatePc.unpublished, CreatePc.row?]
      · exact .of_blank rfl rfl

theorem Books.of_reachable (h : Reachable env w) : Books w :=
  h.invariant .init fun _ _ ih hstep => ih.step (World.stepped hstep)

/-! ## At most once -/

/-- One row, one acknowledgement as persisted and one message for each id; the
message after its row and with its contents, the mark after the message. -/
structure AtMostOnce (w : World) : Prop where
  row : w.shared.db.ids.Nodup
  persisted : ∀ m r m' r' response response', w.requests m = some r → w.requests m' = some r' →
    r.body.notificationId = r'.body.notificationId → r.pc = .returned response →
    r'.pc = .returned response' → response.persisted = true → response'.persisted = true → m = m'
  message : ∀ n, publications n w.log ≤ 1
  carried : Each (Carried w.shared.db) w.log
  delivered : ∀ row ∈ w.shared.db.notifications, row.deliveredLive = true →
    publications row.notificationId w.log = 1

/-- Whatever fails, dies or expires, in whatever order the requests run. -/
theorem creation_at_most_once (h : Reachable env w) : AtMostOnce w := by
  have hb := Books.of_reachable h
  refine ⟨hb.ids, ?_, hb.once, hb.carried, ?_⟩
  · intro m r m' r' response response' hr hr' hid hpc hpc' hp hp'
    refine hb.only m r m' r' hr hr' ?_ ?_ hid
    · simpa [hpc, CreatePc.inserted] using hp
    · simpa [hpc', CreatePc.inserted] using hp'
  · intro row hrow hlive
    exact hb.delivered row.record (List.mem_map_of_mem hrow) hlive

theorem creation_at_most_once_race : ∃ w, (platform plainEnv).run .empty raceRun = some w ∧
    (w.requests 0).map (·.pc) = some (.returned ⟨someBody.notificationId, true, true⟩) ∧
    (w.requests 1).map (·.pc) = some (.returned ⟨someBody.notificationId, false, false⟩) ∧
    AtMostOnce w := by
  have hrun : (platform plainEnv).run .empty raceRun = some _ := rfl
  exact ⟨_, hrun, rfl, rfl, creation_at_most_once (.of_run hrun)⟩

end RealtimeNotify.App
