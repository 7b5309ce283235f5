import RealtimeNotify.Runs.Handover

/-!
# Nothing is lost between the backlog and the live path

The session registers before it queries, a request inserts before it looks up:
what the query does not have was inserted after it, for a session that the
lookup then finds. So every unread notification of the user is in the backlog of
the session or on the way to it, or its request was cut off.
-/

namespace RealtimeNotify.App

open RealtimeNotify.Lib RealtimeNotify.Python NotificationRepository

/-- At most `backlog_limit` notifications of `id` are unread when they are
queried. -/
def backlogFits (env : Env) (id : UUID) (w : World) : Action → Bool
  | .task task _ =>
      match w.awaits env task with
      | some (.getUnreadBacklog v limit) => v ≠ id || (unread w.shared.db id).length ≤ limit
      | _ => true
  | _ => true

/-- Past the backlog query, and not yet leaving. -/
def GatewayPc.queried : GatewayPc → Bool
  | backlogSend _ _ => true
  | pc => pc.inLoop

/-- In the backlog that session `n` is about to send, or has sent. -/
inductive Listed (n : Nat) (k : UUID) (w : World) : Prop where
  | inHand {s u rows row} : w.sessions n = some s → s.pc = .backlogSend u rows → row ∈ rows →
      row.notificationId = k → Listed n k w
  | sent {e} : e ∈ w.log → 0 < e.listed n k → Listed n k w

/-- No request for `k` has returned, or will return, that it inserted it. -/
def Abandoned (k : UUID) (w : World) : Prop :=
  ∀ m r, w.requests m = some r → r.body.notificationId = k → r.pc.inserted = false

inductive Accounted (id : UUID) (n : Nat) (i : String) (k : UUID) (w : World) : Prop where
  | listed : Listed n k w → Accounted id n i k w
  | onTheWay : OnTheWay id k n i w → Accounted id n i k w
  | abandoned : Abandoned k w → Accounted id n i k w

variable {env : Env} {w w' : World} {a : Action} {id k : UUID} {n : Nat} {i : String}

/-! ## Rows -/

/-- An unread row was there, unread, or is new. -/
theorem Stepped.unread_origin (h : Stepped env w a w') {row : Notification}
    (hrow : row ∈ unread w'.shared.db id) :
    (∃ old ∈ unread w.shared.db id, old.notificationId = row.notificationId) ∨
      row.notificationId ∉ w.shared.db.ids := by
  simp only [unread, List.mem_filter, Bool.and_eq_true, decide_eq_true_eq,
    Option.isNone_iff_eq_none] at hrow ⊢
  obtain ⟨hrow, huser, hnone⟩ := hrow
  rcases h.database_cases with hdb | ⟨_, _, op, -, -, -, hcase⟩
  · exact .inl ⟨row, ⟨hdb ▸ hrow, huser, hnone⟩, rfl⟩
  · cases hcase with
    | kept hdb => exact .inl ⟨row, ⟨hdb ▸ hrow, huser, hnone⟩, rfl⟩
    | @created body t hdb =>
      rw [hdb] at hrow
      cases hcreate : create w.shared.db body t with
      | mk db reply =>
        rw [hcreate] at hrow
        cases reply with
        | none =>
          obtain ⟨rfl, -⟩ := create_none hcreate
          exact .inl ⟨row, ⟨hrow, huser, hnone⟩, rfl⟩
        | some new =>
          obtain ⟨hnew, hrows, hid, -⟩ := create_some hcreate
          rw [hrows, List.mem_append, List.mem_singleton] at hrow
          rcases hrow with hrow | rfl
          · exact .inl ⟨row, ⟨hrow, huser, hnone⟩, rfl⟩
          · exact .inr (hid ▸ hnew)
    | @delivered m hdb =>
      rw [hdb, markDeliveredLive] at hrow
      obtain ⟨old, hold, rfl⟩ := List.mem_map.mp hrow
      refine .inl ⟨old, ⟨hold, ?_, ?_⟩, ?_⟩
      · split at huser <;> exact huser
      · split at hnone <;> exact hnone
      · split <;> rfl
    | @read m u hdb =>
      rw [hdb, markRead] at hrow
      split at hrow
      · obtain ⟨old, hold, rfl⟩ := List.mem_map.mp hrow
        split at hnone
        · cases hnone
        · rename_i howned
          rw [if_neg howned] at huser ⊢
          exact .inl ⟨old, ⟨hold, huser, hnone⟩, rfl⟩
      · exact .inl ⟨row, ⟨hrow, huser, hnone⟩, rfl⟩

/-- The request that inserted a new row has the row in hand, or has lost the
reply of the database. -/
theorem Stepped.insertion (h : Stepped env w a w') {row : Notification}
    (hrow : row ∈ w'.shared.db.notifications) (hnew : row.notificationId ∉ w.shared.db.ids) :
    ∃ m r, w.requests m = some r ∧ r.pc = .create ∧
      r.body.notificationId = row.notificationId ∧ r.body.userId = row.userId ∧
      ((∃ row', w'.requests m = some { r with pc := .markSeen (some row') }) ∨
        ∃ c, a = .task (.request m) (.failApplied c)) := by
  have hmem : row.record ∈ w'.shared.db.records := List.mem_map_of_mem hrow
  have hold : ∀ p ∈ w.shared.db.records, p.1.notificationId ≠ row.notificationId := by
    intro p hp heq
    exact hnew (by rw [Database.ids_eq_records, ← heq]; exact List.mem_map_of_mem hp)
  cases h.creationCase with
  | quiet hrec _ _ | published _ _ hrec _ _ _ _ =>
    rw [hrec] at hmem
    exact absurd rfl (hold _ hmem)
  | delivered _ _ hrec _ _ _ _ =>
    rw [hrec] at hmem
    obtain ⟨p, hp, heq⟩ := List.mem_map.mp hmem
    refine absurd ?_ (hold p hp)
    have hfst := congrArg (·.1.notificationId) heq
    split at hfst <;> exact hfst
  | @inserted m r e pc new hr hpc _ hid huser hrec htask heff hlog hreq hto =>
    rw [hrec, List.mem_append, List.mem_singleton] at hmem
    rcases hmem with hmem | hmem
    · exact absurd rfl (hold _ hmem)
    · have henvelope : row.envelope = new.envelope := congrArg Prod.fst hmem
      have hrowid : row.notificationId = new.notificationId :=
        congrArg (·.notificationId) henvelope
      have hrowuser : row.userId = new.userId := congrArg (·.userId) henvelope
      have hr' : w'.requests m = some { r with pc } := by
        rw [hreq]
        exact Function.update_self ..
      refine ⟨m, r, hr, hpc, by rw [hrowid, hid], by rw [hrowuser, huser], ?_⟩
      rcases hto with ⟨rfl, -⟩ | rfl
      · exact .inl ⟨new, hr'⟩
      · right
        generalize hraised : ({ r with pc := .raised } : PostRequest) = r' at hr'
        have hpc' : r'.pc = .raised := by rw [← hraised]
        cases h.request_cases hr' with
        | same hsame _ =>
          obtain rfl := Option.some.inj (hr.symm.trans hsame)
          rw [hpc] at hpc'
          cases hpc'
        | new hnone _ _ => simp [hr] at hnone
        | killed _ hlog' => simp [hlog] at hlog'
        | moved hr₀ ha hadv _ hlog' =>
          obtain rfl := Option.some.inj (hr.symm.trans hr₀)
          obtain rfl := (List.cons.inj (hlog.symm.trans hlog')).1
          rw [hpc] at hadv
          cases hadv with
          | returned hn _ =>
            cases hn
            cases hpc'
          | raised _ _ => cases heff
          | @applied _ _ _ c _ _ _ _ _ => exact ⟨c, ha⟩

/-! ## Requests that are cut off -/

/-- With the row there, no request comes past an insertion of it. -/
theorem Stepped.inserted_origin (h : Stepped env w a w') (hk : k ∈ w.shared.db.ids) {m : Nat}
    {r' : PostRequest} (hr' : w'.requests m = some r') (hid : r'.body.notificationId = k)
    (hi : r'.pc.inserted = true) :
    ∃ r, w.requests m = some r ∧ r.body.notificationId = k ∧ r.pc.inserted = true := by
  have hmoved : ∀ {l r pc}, w.requests l = some r → r.pc.inserted = true →
      RequestMoved w w' l r pc →
      ∃ r, w.requests m = some r ∧ r.body.notificationId = k ∧ r.pc.inserted = true := by
    intro l r pc hr hins hreq
    rcases hreq.cases hr' with ⟨rfl, rfl⟩ | ⟨-, hr₀⟩
    · exact ⟨r, hr, hid, hins⟩
    · exact ⟨r', hr₀, hid, hi⟩
  cases h.creationCase with
  | quiet _ _ hreq =>
    rcases hreq m r' hr' with hallow | ⟨r, hr, hbody, hweaker⟩
    · simp [hallow, CreatePc.inserted] at hi
    · exact ⟨r, hr, by rw [hbody, hid], hweaker.inserted hi⟩
  | @inserted l r _ _ _ _ _ hnew _ _ _ _ _ _ hreq _ =>
    rcases hreq.cases hr' with ⟨rfl, rfl⟩ | ⟨-, hr₀⟩
    · exact absurd (hid ▸ hk) hnew
    · exact ⟨r', hr₀, hid, hi⟩
  | published hr hpc _ _ _ hreq _ => exact hmoved hr (by rw [hpc]; rfl) hreq
  | delivered hr hpc _ _ _ hreq _ => exact hmoved hr (by rw [hpc]; rfl) hreq

theorem Abandoned.step (h : Abandoned k w) (hstep : Stepped env w a w')
    (hk : k ∈ w.shared.db.ids) : Abandoned k w' := by
  intro m r' hr' hid
  by_contra hi
  obtain ⟨r, hr, hid₀, hins⟩ := hstep.inserted_origin hk hr' hid (by simpa using hi)
  simp [h m r hr hid₀] at hins

theorem CreatePc.raised_of_cut {client : Option String} {body : NotificationCreate}
    {pc pc' : CreatePc} {stored : Bool} {o : Outcome Choice} {s sh : Shared}
    {e : Happened Op Op.Reply} (hcut : pc.cut stored o = true)
    (hadv : Advances semantics s (pc.next env client body) o sh pc' e) : pc' = .raised := by
  cases hadv with
  | returned _ _ => cases pc <;> cases hcut
  | raised hn _ | applied hn _ _ => exact CreatePc.raised_eq hn

/-- What is cut off is behind its insertion, or was about to make it. -/
theorem CreatePc.of_cut {pc : CreatePc} {stored : Bool} {o : Outcome Choice}
    (hcut : pc.cut stored o = true) : pc.unpublished = true ∨ stored = false := by
  cases pc <;> cases o <;> simp_all [cut, unpublished]

/-- No other request is behind an insertion of the same id. -/
theorem Abandoned.of_cutsOff (hcut : cutsOff k w a) (hb : Books w) (hstep : Stepped env w a w') :
    Abandoned k w' := by
  have honly : ∀ {m r m' r'}, w.requests m = some r → r.body.notificationId = k →
      r.pc.unpublished = true → w.requests m' = some r' → r'.body.notificationId = k →
      r'.pc.inserted = true → m' = m := by
    intro m r m' r' hr hk hu hr' hk' hi'
    exact hb.only m' r' m r hr' hr hi' (CreatePc.inserted_of_unpublished hu) (hk'.trans hk.symm)
  cases hstep with
  | @request m r o sh pc e hr hadv =>
    obtain ⟨r₀, hr₀, hk, hcut⟩ := hcut
    obtain rfl := Option.some.inj (hr.symm.trans hr₀)
    intro m' r' hr' hk'
    by_cases hm : m' = m
    · subst hm
      obtain rfl := by simpa [World.setRequest] using hr'
      rw [CreatePc.raised_of_cut hcut hadv]
      rfl
    · have hr' : w.requests m' = some r' := by simpa [World.setRequest, hm] using hr'
      -- one that has inserted would be this one, or would have its row in the table
      by_contra hi
      have hi : r'.pc.inserted = true := by simpa using hi
      rcases CreatePc.of_cut hcut with hu | hnew
      · exact hm (honly hr hk hu hr' hk' hi)
      · exact absurd (hk' ▸ hb.stored m' r' hr' hi) (by simpa using hnew)
  | @crash i hi =>
    obtain ⟨m, r, hr, rfl, hk, hu⟩ := hcut
    intro m' r' hr' hk'
    simp only [World.crash, World.killAll, Option.map_eq_some_iff] at hr'
    obtain ⟨r₀, hr₀, rfl⟩ := hr'
    by_contra hins
    -- killed with the instance, it is the request cut off; elsewhere it cannot be
    split at hins
    · rename_i hdead
      rw [if_pos hdead] at hk'
      have hi₀ : r₀.pc.inserted = true := (CreatePc.weaker_kill _).inserted (by simpa using hins)
      obtain rfl := honly hr hk hu hr₀ hk' hi₀
      obtain rfl := Option.some.inj (hr.symm.trans hr₀)
      cases hpc : r.pc <;>
        simp [hpc, CreatePc.kill, CreatePc.inserted, CreatePc.unpublished] at hins hu
    · rename_i halive
      rw [if_neg halive] at hk'
      obtain rfl := honly hr hk hu hr₀ hk' (by simpa using hins)
      obtain rfl := Option.some.inj (hr.symm.trans hr₀)
      exact halive rfl
  | _ => cases hcut

/-! ## The session -/

theorem GatewayPc.not_leaving_of_queried {pc : GatewayPc} (h : pc.queried = true) :
    pc.leaving = false := by
  cases pc <;> simp_all [queried, inLoop, leaving]

theorem GatewayPc.registered_of_queried {pc : GatewayPc} {u : String} (h : pc.queried = true)
    (hu : pc.user? = some u) : pc.registered? = some u := by
  cases pc <;> simp_all [queried, inLoop, user?, registered?, connected?]

/-- The backlog is past its query, or it is queried now. -/
theorem GatewayPc.queried_resume {c : String} {pc r : GatewayPc} {op : Op}
    {f : op.Reply → GatewayPc} {reply : op.Reply} (h : pc.next env n i c = .call op f r)
    (hq : (f reply).queried = true) :
    pc.queried = true ∨ ∃ u id, pc = .backlogQuery u id := by
  cases pc with
  | redeem _ =>
    cases h
    cases reply <;> cases hq
  | onlineSeen u =>
    cases h
    cases hu : UUID.ofString u <;> simp [hu, queried, inLoop] at hq
  | backlogQuery u id => exact .inr ⟨u, id, rfl⟩
  | backlogSend _ _ | receive _ | allow _ _ | heartbeat _ | heartbeatSeen _ | refresh _
  | presence _ _ | presenceSeen _ | readReceipt _ _ _ | respond _ _ => exact .inl rfl
  | ended => cases h
  | _ =>
    cases h
    cases hq

/-- A listed notification stays so, as long as the session does not leave. -/
theorem Listed.step (h : Listed n k w) (hstep : Stepped env w a w') {s' : Session}
    (hs' : w'.sessions n = some s') (hq : s'.pc.queried = true) : Listed n k w' := by
  cases h with
  | @inHand s u rows row hs hpc hrow hk =>
    cases hstep.session_cases hs' with
    | same hs₀ _ _ =>
      obtain rfl := Option.some.inj (hs.symm.trans hs₀)
      exact .inHand hs' hpc hrow hk
    | new hnone _ _ _ => simp [hs] at hnone
    | killed _ _ _ => cases hq
    | moved hs₀ _ hadv _ hlog =>
      obtain rfl := Option.some.inj (hs.symm.trans hs₀)
      cases hadv with
      | raised hn _ | applied hn _ _ =>
        have hleave := GatewayPc.leaving_raised hn
        simp only at hq
        rw [GatewayPc.not_leaving_of_queried hq] at hleave
        cases hleave
      | returned hn _ =>
        rw [hpc] at hn
        cases hn
        refine .sent (by rw [hlog]; exact List.mem_cons_self ..) ?_
        rw [Event.listed_eq rfl, List.countP_pos_iff]
        exact ⟨row.envelope, List.mem_map_of_mem hrow, by simp [hk]⟩
  | sent he hlisted => exact .sent (hstep.log_subset he) hlisted

/-- A query within the limit lists every unread notification. -/
theorem Listed.of_query {s : Session} {u : String} {c : Choice} {rows : List Notification}
    {row : Notification} (hs : w.sessions n = some s) (hpc : s.pc = .backlogSend u rows)
    {before sh : Shared}
    (hx : before.exec (.getUnreadBacklog id env.backlogLimit) c = some (sh, rows))
    (hfits : (unread before.db id).length ≤ env.backlogLimit) (hrow : row ∈ unread sh.db id) :
    Listed n row.notificationId w := by
  cases c with
  | tie tie =>
    simp only [Shared.exec, Option.some.injEq, Prod.mk.injEq] at hx
    obtain ⟨rfl, rfl⟩ := hx
    exact .inHand hs hpc (getUnreadBacklog_complete hfits hrow) rfl
  | _ => simp [Shared.exec] at hx

/-! ## The invariant -/

/-- Once session `n` has queried its backlog, every unread notification of `id`
is accounted for. -/
def Covered (id : UUID) (n : Nat) (w : World) : Prop :=
  ∀ s, w.sessions n = some s → s.pc.queried = true → s.pc.user? = some id.str →
    ∀ row ∈ unread w.shared.db id, Accounted id n s.instanceId row.notificationId w

theorem Accounted.step (h : Accounted id n i k w) (hawait : Awaited id n i w) (hb : Books w)
    (hk : k ∈ w.shared.db.ids) (hg : steady w a) (hstep : Stepped env w a w')
    (hcrash : a ≠ .crash i) {s' : Session} (hs' : w'.sessions n = some s')
    (hq : s'.pc.queried = true) : Accounted id n i k w' := by
  cases h with
  | listed h => exact .listed (h.step hstep hs' hq)
  | onTheWay h =>
    rcases h.step hawait hb hstep hg hcrash with hway | hcut
    · exact .onTheWay hway
    · exact .abandoned (.of_cutsOff hcut hb hstep)
  | abandoned h => exact .abandoned (h.step hstep hk)

/-- A notification inserted while the session is past its query is on its way. -/
theorem Accounted.of_insertion (hb : Books w) (hstep : Stepped env w a w') {row : Notification}
    (hrow : row ∈ unread w'.shared.db id) (hnew : row.notificationId ∉ w.shared.db.ids) :
    Accounted id n i row.notificationId w' := by
  obtain ⟨hmem, huser⟩ : row ∈ w'.shared.db.notifications ∧ row.userId = id := by
    simp only [unread, List.mem_filter, Bool.and_eq_true, decide_eq_true_eq] at hrow
    exact ⟨hrow.1, hrow.2.1⟩
  obtain ⟨m, r, hr, hpc, hid, hu, ⟨row', hr'⟩ | ⟨c, ha⟩⟩ := hstep.insertion hmem hnew
  · exact .onTheWay (.request hr' hid (by rw [hu, huser]) rfl)
  · refine .abandoned (.of_cutsOff ?_ hb hstep)
    rw [ha]
    exact ⟨r, hr, hid, by simp [hpc, CreatePc.cut, hnew]⟩

theorem Covered.step (h : Covered id n w) (hup : Up w) (hsingle : Single id.str w) (hb : Books w)
    (hr : Routed w) (hg : steady w a) (hfits : backlogFits env id w a = true)
    (hstep : Stepped env w a w') : Covered id n w' := by
  intro s' hs' hq hu row hrow
  have hkept : ∀ {s}, w.sessions n = some s → s.pc.queried = true → s.pc.user? = some id.str →
      s.instanceId = s'.instanceId → a ≠ .crash s.instanceId →
      Accounted id n s'.instanceId row.notificationId w' := by
    intro s hs hq₀ hu₀ hi hcrash
    rcases hstep.unread_origin hrow with ⟨old, hold, hid⟩ | hnew
    · have hacc := h s hs hq₀ hu₀ old hold
      have hmem : old.notificationId ∈ w.shared.db.ids :=
        List.mem_map_of_mem (List.mem_of_mem_filter hold)
      have hawait := Awaited.of_single hup hsingle hs (GatewayPc.registered_of_queried hq₀ hu₀)
      rw [← hi, ← hid]
      exact hacc.step hawait hb hmem hg hstep hcrash hs' hq
    · exact .of_insertion hb hstep hrow hnew
  cases hstep.session_cases hs' with
  | same hs _ hcrash => exact hkept hs hq hu rfl hcrash
  | new _ _ _ _ => cases hq
  | killed _ _ _ => cases hq
  | @moved s _ sh _ _ hs ha hadv hsh _ =>
    cases hadv with
    | raised hn _ | applied hn _ _ =>
      -- an exception sends the session to its `finally`
      have hleave := GatewayPc.leaving_raised hn
      simp only at hq
      rw [GatewayPc.not_leaving_of_queried hq] at hleave
      cases hleave
    | @returned _ _ _ c _ reply hn hx =>
      rcases GatewayPc.queried_resume hn hq with hq₀ | ⟨u, v, hpc⟩
      · rcases GatewayPc.user_resume hn hu with hu₀ | ⟨ticket, hpc⟩
        · exact hkept hs hq₀ hu₀ rfl (by simp [ha])
        · rw [hpc] at hq₀
          cases hq₀
      · -- the query: whatever is unread now was read by it
        have hstored := hr.session n s hs
        have haw : w.awaits env (.session n) = _ := World.awaits_session hs
        rw [hpc] at hn hstored haw
        cases hn
        obtain rfl : u = id.str := by simpa [GatewayPc.user?] using hu
        obtain rfl : id = v := by simpa [GatewayPc.Stored] using hstored
        have hlimit : (unread w.shared.db id).length ≤ env.backlogLimit := by
          have haw : w.awaits env (.session n)
            = some (.getUnreadBacklog id env.backlogLimit) := haw
          rw [ha] at hfits
          simpa [backlogFits, haw] using hfits
        rw [hsh] at hrow
        exact .listed (.of_query (c := c) hs' rfl hx hlimit hrow)

theorem Covered.of_reach
    (h : Reach (platform env) (fun w a => steadyFor id.str w a ∧ backlogFits env id w a = true) w) :
    Covered id n w := by
  refine h.invariant (I := Covered id n) ?_ fun {v _ b} hreach hg ih hstep => ?_
  · intro s hs
    simp [platform, World.empty] at hs
  · have hfor : Reach (platform env) (steadyFor id.str) v := hreach.mono fun _ _ hg => hg.1
    have hany : Reachable env v := hreach.mono fun _ _ _ => trivial
    exact ih.step (.of_reach_for hfor) (.of_reach hfor) (.of_reachable hany) (.of_reachable hany)
      hg.1.2 hg.2 (World.stepped hstep)

/-! ## No notification is lost -/

theorem sendings_pos {log : List Event} {e : Event} (he : e ∈ log)
    (h : 0 < e.listed n k ∨ e.delivers n k = true) : 0 < sendings n k log := by
  rcases h with hlisted | hlive
  · have hpos : (log.map (·.listed n k)).sum ≠ 0 := by
      intro hsum
      have hzero := List.sum_eq_zero_iff_forall_eq_nat.mp hsum _ (List.mem_map_of_mem he)
      omega
    unfold sendings
    omega
  · have hpos : 0 < log.countP (·.delivers n k) := List.countP_pos_iff.mpr ⟨e, he, hlive⟩
    unfold sendings
    omega

/-- For a user with one session at a time, however its connecting interleaves
with the requests: a notification that was acknowledged as persisted and is
still unread was sent on the socket of the open session, in the backlog or live. -/
theorem no_notification_lost
    (h : Reach (platform env) (fun w a => steadyFor id.str w a ∧ backlogFits env id w a = true) w)
    {s : Session} (hs : w.sessions n = some s) (hloop : s.pc.inLoop = true)
    (hu : s.pc.user? = some id.str) (hdone : w.processed s.instanceId) {m : Nat}
    {r : PostRequest} {response : NotificationCreateResponse} (hr : w.requests m = some r)
    (hpc : r.pc = .returned response) (hpersisted : response.persisted = true)
    {row : Notification} (hrow : row ∈ unread w.shared.db id)
    (hid : row.notificationId = r.body.notificationId) :
    0 < sendings n r.body.notificationId w.log := by
  have hb : Books w := .of_reachable (h.mono fun _ _ _ => trivial)
  have hinserted : r.pc.inserted = true := by rw [hpc]; exact hpersisted
  have hqueried : s.pc.queried = true := by
    cases hspc : s.pc <;> simp_all [GatewayPc.queried, GatewayPc.inLoop]
  have hacc := Covered.of_reach h s hs hqueried hu row hrow
  rw [hid] at hacc
  cases hacc with
  | listed hlisted =>
    cases hlisted with
    | inHand hs₀ hsend _ _ =>
      obtain rfl := Option.some.inj (hs.symm.trans hs₀)
      rw [hsend] at hloop
      cases hloop
    | sent he hlisted => exact sendings_pos he (.inl hlisted)
  | onTheWay hway =>
    have hsent := hway.delivered hdone fun m' r' hr' hk => by
      -- the request that inserted it is the one that has returned
      by_contra hu
      have hu : r'.pc.unpublished = true := by simpa using hu
      obtain rfl := hb.only m' r' m r hr' hr (CreatePc.inserted_of_unpublished hu) hinserted hk
      obtain rfl := Option.some.inj (hr.symm.trans hr')
      rw [hpc] at hu
      cases hu
    obtain ⟨e, he, hd⟩ := List.any_eq_true.mp hsent
    exact sendings_pos he (.inr hd)
  | abandoned hgone =>
    rw [hgone m r hr rfl] at hinserted
    cases hinserted

theorem no_notification_lost_delivery : ∃ w, (platform plainEnv).run .empty deliveryRun = some w ∧
    0 < sendings 0 someBody.notificationId w.log := by
  have hmeets : (platform plainEnv).Meets (fun w a => (solo 0 w a &&
      backlogFits plainEnv someBody.userId w a) = true) .empty deliveryRun := by decide
  obtain ⟨w, hrun, s, hs, hloop, hu, hdone, r, response, hr, hpc, hpersisted, hbody, row, hrow,
      hid⟩ :
      ∃ w, (platform plainEnv).run .empty deliveryRun = some w ∧ ∃ s, w.sessions 0 = some s ∧
        s.pc.inLoop = true ∧ s.pc.user? = some someUser ∧ w.processed s.instanceId ∧
        ∃ r response, w.requests 0 = some r ∧ r.pc = .returned response ∧
        response.persisted = true ∧ r.body.notificationId = someBody.notificationId ∧
        ∃ row, unread w.shared.db someBody.userId = [row] ∧
          row.notificationId = r.body.notificationId :=
    ⟨_, rfl, _, rfl, rfl, rfl, ⟨rfl, _, rfl, rfl⟩, _, _, rfl, rfl, rfl, rfl, _, rfl, rfl⟩
  have hsolo : Reach (platform plainEnv) (fun w a => (solo 0 w a &&
      backlogFits plainEnv someBody.userId w a) = true) w := .of_run .init hmeets hrun
  have hreach : Reach (platform plainEnv) (fun w a => steadyFor someBody.userId.str w a ∧
      backlogFits plainEnv someBody.userId w a = true) w := by
    refine hsolo.mono_of_reach fun v b hv hg => ?_
    obtain ⟨hsolo, hfits⟩ := Bool.and_eq_true_iff.mp hg
    have hv : Reach (platform plainEnv) (fun w a => solo 0 w a = true) v :=
      hv.mono fun _ _ hg => (Bool.and_eq_true_iff.mp hg).1
    exact ⟨steadyFor_of_solo hv hsolo, hfits⟩
  have huser : someUser = someBody.userId.str := by decide
  exact ⟨w, hrun, hbody ▸ no_notification_lost hreach hs hloop (huser ▸ hu) hdone hr hpc hpersisted
    (hrow ▸ List.mem_singleton_self row) hid⟩

end RealtimeNotify.App
