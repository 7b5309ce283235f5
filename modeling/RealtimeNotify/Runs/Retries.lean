import RealtimeNotify.Runs.Completeness

/-!
# A request that is repeated until it is answered

The row is inserted by one attempt, and only that attempt publishes it. A retry
finds the dedup key or the row and answers that nothing was persisted: it does
not take over what an earlier attempt left undone.
-/

namespace RealtimeNotify.App

open RealtimeNotify.Lib RealtimeNotify.Python

/-- Ended with an error. -/
def CreatePc.failed : CreatePc → Bool
  | rejected _ | raised | killed => true
  | _ => false

/-- The notification `k` is requested for the user `id` only, again when every
earlier attempt has failed, and while session `n` of the user is registered. -/
def repeats (id k : UUID) (n : Nat) (w : World) : Action → Prop
  | .post _ _ _ body => body.notificationId = k → body.userId = id ∧
      (∃ s, w.sessions n = some s ∧ s.pc.registered? = some id.str) ∧
      ∀ m r, w.requests m = some r → r.body.notificationId = k → r.pc.failed = true
  | _ => True

variable {env : Env} {w w' : World} {a : Action} {id k : UUID} {n : Nat}

theorem CreatePc.failed_kill {pc : CreatePc} (h : pc.failed = true) : pc.kill.failed = true := by
  cases pc <;> simp_all [failed, kill]

theorem CreatePc.unpublished_of_failed {pc : CreatePc} (h : pc.failed = true) :
    pc.unpublished = false := by
  cases pc <;> simp_all [failed, unpublished]

/-- A request was there, or is posted now; and what has failed stays so. -/
theorem Stepped.request_origin (h : Stepped env w a w') {m : Nat} {r' : PostRequest}
    (hr' : w'.requests m = some r') :
    (∃ r, w.requests m = some r ∧ r.body = r'.body ∧
      (r.pc.failed = true → r'.pc.failed = true)) ∨
    ∃ i client, a = .post m i client r'.body ∧ w.requests m = none := by
  cases h with
  | tick | expireDedup | boot _ | connect _ _ | issue _ _ => exact .inl ⟨r', hr', rfl, id⟩
  | session _ _ | ticketRequest _ _ | subscriber _ _ _ | lifespan _ _ | liveness _ _ _ =>
    exact .inl ⟨r', hr', rfl, id⟩
  | crash _ =>
    simp only [World.crash, World.killAll, Option.map_eq_some_iff] at hr'
    obtain ⟨r, hr, rfl⟩ := hr'
    refine .inl ⟨r, hr, ?_, fun hfailed => ?_⟩
    · split <;> rfl
    · split
      · exact CreatePc.failed_kill hfailed
      · exact hfailed
  | @post l i client body _ hl =>
    by_cases hm : m = l
    · subst hm
      obtain rfl := by simpa [World.setRequest] using hr'
      exact .inr ⟨i, client, rfl, hl⟩
    · exact .inl ⟨r', by simpa [World.setRequest, hm] using hr', rfl, id⟩
  | @request l r _ _ pc _ hr hadv =>
    by_cases hm : m = l
    · subst hm
      obtain rfl := by simpa [World.setRequest] using hr'
      refine .inl ⟨r, hr, rfl, fun hfailed => ?_⟩
      -- a handler that has ended takes no step
      cases hpc : r.pc <;> simp [hpc, CreatePc.failed] at hfailed <;> rw [hpc] at hadv <;>
        cases hadv with
        | returned hn _ | raised hn _ | applied hn _ _ => cases hn
    · exact .inl ⟨r', by simpa [World.setRequest, hm] using hr', rfl, id⟩

/-! ## The invariant -/

/-- Session `n` of the user has been registered, and has left since or has what
`P` says. -/
def Registered (id : UUID) (n : Nat) (w : World) (P : Session → Prop) : Prop :=
  ∃ s, w.sessions n = some s ∧
    (s.pc.leaving = true ∨ s.pc.registered? = some id.str ∧ P s)

structure Retrying (id k : UUID) (n : Nat) (w : World) : Prop where
  user : ∀ m r, w.requests m = some r → r.body.notificationId = k → r.body.userId = id
  alone : ∀ m r m' r', w.requests m = some r → w.requests m' = some r' →
    r.body.notificationId = k → r'.body.notificationId = k → m ≠ m' →
    r.pc.failed = true ∨ r'.pc.failed = true
  opened : ∀ m r, w.requests m = some r → r.body.notificationId = k →
    Registered id n w fun _ => True
  stored : k ∈ w.shared.db.ids → Registered id n w fun s => OnTheWay id k n s.instanceId w

theorem Retrying.init : Retrying id k n .empty where
  user := by simp [World.empty]
  alone := by simp [World.empty]
  opened := by simp [World.empty]
  stored := by simp [World.empty, Database.ids]

theorem Registered.step {P Q : Session → Prop} (h : Registered id n w P)
    (hstep : Stepped env w a w')
    (hnext : ∀ s s', w.sessions n = some s → s.pc.registered? = some id.str → P s →
      s'.pc.registered? = some id.str → s'.instanceId = s.instanceId →
      a ≠ .crash s.instanceId → Q s') : Registered id n w' Q := by
  obtain ⟨s, hs, hcase⟩ := h
  obtain ⟨s', hs', hi, hleave, hcourse⟩ := hstep.session_course hs
  refine ⟨s', hs', ?_⟩
  rcases hcase with hleaving | ⟨hreg, hp⟩
  · exact .inl (hleave hleaving)
  · rcases (hcourse id.str).2 hreg with hreg' | hleaving
    · refine .inr ⟨hreg', hnext s s' hs hreg hp hreg' hi ?_⟩
      rintro rfl
      cases hstep.session_cases hs' with
      | same hs₀ _ hcrash => exact hcrash (by rw [hi])
      | new hnone _ _ _ => simp [hs] at hnone
      | killed _ _ _ => cases hreg'
      | moved _ ha _ _ _ => cases ha
    · exact .inl hleaving

theorem Retrying.user_step (h : Retrying id k n w) (hg : repeats id k n w a)
    (hstep : Stepped env w a w') {m : Nat} {r' : PostRequest} (hr' : w'.requests m = some r')
    (hk : r'.body.notificationId = k) : r'.body.userId = id := by
  rcases hstep.request_origin hr' with ⟨r, hr, hbody, -⟩ | ⟨i, client, rfl, -⟩
  · rw [← hbody]
    exact h.user m r hr (by rw [hbody, hk])
  · exact (hg hk).1

theorem Retrying.alone_step (h : Retrying id k n w) (hg : repeats id k n w a)
    (hstep : Stepped env w a w') {m m' : Nat} {r₁ r₂ : PostRequest}
    (hr₁ : w'.requests m = some r₁) (hr₂ : w'.requests m' = some r₂)
    (hk₁ : r₁.body.notificationId = k) (hk₂ : r₂.body.notificationId = k) (hne : m ≠ m') :
    r₁.pc.failed = true ∨ r₂.pc.failed = true := by
  rcases hstep.request_origin hr₁ with ⟨r, hr, hbody, hfailed⟩ | ⟨i, client, rfl, -⟩
  · rcases hstep.request_origin hr₂ with ⟨r', hr', hbody', hfailed'⟩ | ⟨i, client, rfl, -⟩
    · exact (h.alone m r m' r' hr hr' (by rw [hbody, hk₁]) (by rw [hbody', hk₂]) hne).imp
        hfailed hfailed'
    · exact .inl (hfailed ((hg hk₂).2.2 m r hr (by rw [hbody, hk₁])))
  · rcases hstep.request_origin hr₂ with ⟨r', hr', hbody', hfailed'⟩ | ⟨j, client', ha, -⟩
    · exact .inr (hfailed' ((hg hk₁).2.2 m' r' hr' (by rw [hbody', hk₂])))
    · obtain ⟨rfl, -⟩ := Action.post.inj ha
      exact absurd rfl hne

theorem Retrying.opened_step (h : Retrying id k n w) (hg : repeats id k n w a)
    (hstep : Stepped env w a w') {m : Nat} {r' : PostRequest} (hr' : w'.requests m = some r')
    (hk : r'.body.notificationId = k) : Registered id n w' fun _ => True := by
  rcases hstep.request_origin hr' with ⟨r, hr, hbody, -⟩ | ⟨i, client, rfl, -⟩
  · exact (h.opened m r hr (by rw [hbody, hk])).step hstep fun _ _ _ _ _ _ _ _ => trivial
  · obtain ⟨-, ⟨s, hs, hreg⟩, -⟩ := hg hk
    have hnow : Registered id n w fun _ => True := ⟨s, hs, .inr ⟨hreg, trivial⟩⟩
    exact hnow.step hstep fun _ _ _ _ _ _ _ _ => trivial

/-- The insertion is made while the session is registered, and nothing takes the
notification off its way. -/
theorem Retrying.stored_step (h : Retrying id k n w) (hup : Up w) (hsingle : Single id.str w)
    (hb : Books w) (hg : steady w a) (hcut : ¬ cutsOff k w a) (hstep : Stepped env w a w')
    (hk : k ∈ w'.shared.db.ids) :
    Registered id n w' fun s => OnTheWay id k n s.instanceId w' := by
  by_cases hold : k ∈ w.shared.db.ids
  · refine (h.stored hold).step hstep fun s s' hs hreg hway _ hi hcrash => ?_
    rw [hi]
    exact (hway.step (.of_single hup hsingle hs hreg) hb hstep hg hcrash).resolve_right hcut
  · obtain ⟨row, hrow, rfl⟩ := List.mem_map.mp hk
    obtain ⟨m, r, hr, hpc, hid, -, ⟨row', hr'⟩ | ⟨c, rfl⟩⟩ := hstep.insertion hrow hold
    · refine (h.opened m r hr hid).step hstep fun s s' _ _ _ _ _ _ => ?_
      exact .request hr' hid (h.user m r hr hid) rfl
    · exact absurd ⟨r, hr, hid, by simp [hpc, CreatePc.cut, hold]⟩ hcut

theorem Retrying.of_reach (h : Reach (platform env) (fun w a => steadyFor id.str w a ∧
    repeats id k n w a ∧ ¬ cutsOff k w a) w) : Retrying id k n w := by
  refine h.invariant .init fun {v _ b} hreach hg ih hstep => ?_
  have hfor : Reach (platform env) (steadyFor id.str) v := hreach.mono fun _ _ hg => hg.1
  have hstep := World.stepped hstep
  exact ⟨fun _ _ => ih.user_step hg.2.1 hstep, fun _ _ _ _ => ih.alone_step hg.2.1 hstep,
    fun _ _ => ih.opened_step hg.2.1 hstep,
    ih.stored_step (.of_reach_for hfor) (.of_reach hfor)
      (.of_reachable (hfor.mono fun _ _ _ => trivial)) hg.1.2 hg.2.2 hstep⟩

/-! ## Retries -/

/-- A caller repeats a request until it is answered, whatever raises up to the
insertion and from the publication on, and no attempt ends between the two: then
the notification was sent to the session. -/
theorem retries_complete (h : Reach (platform env) (fun w a => steadyFor id.str w a ∧
    repeats id k n w a ∧ ¬ cutsOff k w a) w) {s : Session} (hs : w.sessions n = some s)
    (hreg : s.pc.registered? = some id.str) (hdone : w.processed s.instanceId) {m : Nat}
    {r : PostRequest} {response : NotificationCreateResponse} (hr : w.requests m = some r)
    (hk : r.body.notificationId = k) (hpc : r.pc = .returned response) :
    0 < sendings n k w.log := by
  have hretrying := Retrying.of_reach h
  have hanswered : Answered w := .of_reachable (h.mono fun _ _ _ => trivial)
  have hstored : k ∈ w.shared.db.ids := hk ▸ hanswered.settled m r hr (by rw [hpc]; rfl)
  have hended : ∀ m' r', w.requests m' = some r' → r'.body.notificationId = k →
      r'.pc.unpublished = false := by
    intro m' r' hr' hk'
    by_cases hm : m = m'
    · subst hm
      obtain rfl := Option.some.inj (hr.symm.trans hr')
      rw [hpc]
      rfl
    · rcases hretrying.alone m r m' r' hr hr' hk hk' hm with hfailed | hfailed
      · rw [hpc] at hfailed
        cases hfailed
      · exact CreatePc.unpublished_of_failed hfailed
  obtain ⟨s₀, hs₀, hleaving | ⟨-, hway⟩⟩ := hretrying.stored hstored
  · obtain rfl := Option.some.inj (hs.symm.trans hs₀)
    rw [GatewayPc.not_leaving_of_connected (GatewayPc.connected_of_registered hreg)] at hleaving
    cases hleaving
  · obtain rfl := Option.some.inj (hs.symm.trans hs₀)
    obtain ⟨e, he, hd⟩ := List.any_eq_true.mp (hway.delivered hdone hended)
    exact sendings_pos he (.inr hd)

/-! ## Two attempts -/

/-- Requests 0 and 1 are for the user of session 0, each made when the other is
not there or has failed. -/
def twoAttempts (w : World) : Action → Bool
  | .post m _ _ body => m < 2 && body.userId = someBody.userId &&
      (w.sessions 0).any (·.pc.registered? = some someBody.userId.str) &&
      (w.requests 0).all (·.pc.failed) && (w.requests 1).all (·.pc.failed)
  | .crash _ => false
  | a => solo 0 w a

theorem solo_of_attempts (h : twoAttempts w a = true) : solo 0 w a = true := by
  cases a with
  | post _ _ _ _ | crash _ => rfl
  | _ => exact h

theorem repeats_of_attempts (h : Reach (platform env) (fun w a => twoAttempts w a = true) w)
    (hg : twoAttempts w a = true) :
    steadyFor someBody.userId.str w a ∧ repeats someBody.userId k 0 w a := by
  have hnumbers : ∀ m r, w.requests m = some r → m < 2 := by
    refine h.invariant (I := fun w => ∀ m r, w.requests m = some r → m < 2) ?_ ?_
    · simp [platform, World.empty]
    · intro w w' a _ hg ih hstep m r' hr'
      rcases (World.stepped hstep).request_origin hr' with ⟨r, hr, -⟩ | ⟨i, client, rfl, -⟩
      · exact ih m r hr
      · simp only [twoAttempts, Bool.and_eq_true, decide_eq_true_eq] at hg
        exact hg.1.1.1.1
  refine ⟨steadyFor_of_solo (h.mono fun _ _ => solo_of_attempts) (solo_of_attempts hg), ?_⟩
  cases a with
  | post m i client body =>
    simp only [twoAttempts, Bool.and_eq_true, decide_eq_true_eq, Option.any_eq_true] at hg
    obtain ⟨⟨⟨⟨-, huser⟩, hregistered⟩, hfirst⟩, hsecond⟩ := hg
    refine fun _ => ⟨huser, hregistered, fun l r hr _ => ?_⟩
    have hl := hnumbers l r hr
    obtain rfl | rfl : l = 0 ∨ l = 1 := by omega
    · simpa [hr] using hfirst
    · simpa [hr] using hsecond
  | _ => trivial

/-- No request for `k` is cut off by an exception. -/
def publishesOrFails (k : UUID) (w : World) : Action → Bool
  | .task (.request m) o => (w.requests m).all fun r => !r.pc.cut (k ∈ w.shared.db.ids) o
  | _ => true

/-- The database does not answer the first attempt, before it has written. -/
def retriedRun : List Action :=
  soloRun ++ Action.submit 0 "a" someBody ++ .fail (.request 0) ::
    Action.submit 1 "a" someBody ++ .insert 1 newYear :: List.replicate 5 (.ok (.request 1)) ++
    List.replicate 3 (.ok (.subscriber "a"))

theorem retries_complete_retried : ∃ w, (platform plainEnv).run .empty retriedRun = some w ∧
    (w.requests 0).map (·.pc) = some .raised ∧
    0 < sendings 0 someBody.notificationId w.log := by
  have hmeets : (platform plainEnv).Meets (fun w a => (twoAttempts w a &&
      publishesOrFails someBody.notificationId w a) = true) .empty retriedRun := by decide
  obtain ⟨w, hrun, hraised, s, hs, hreg, hdone, r, response, hr, hk, hpc⟩ : ∃ w,
      (platform plainEnv).run .empty retriedRun = some w ∧
      (w.requests 0).map (·.pc) = some .raised ∧ ∃ s, w.sessions 0 = some s ∧
      s.pc.registered? = some someUser ∧ w.processed s.instanceId ∧ ∃ r response,
      w.requests 1 = some r ∧ r.body.notificationId = someBody.notificationId ∧
      r.pc = .returned response :=
    ⟨_, rfl, rfl, _, rfl, rfl, ⟨rfl, _, rfl, rfl⟩, _, _, rfl, rfl, rfl⟩
  have hreach : Reach (platform plainEnv) (fun w a => steadyFor someBody.userId.str w a ∧
      repeats someBody.userId someBody.notificationId 0 w a ∧
      ¬ cutsOff someBody.notificationId w a) w := by
    refine (Reach.of_run .init hmeets hrun).mono_of_reach fun v b hv hg => ?_
    obtain ⟨hattempts, hends⟩ := Bool.and_eq_true_iff.mp hg
    obtain ⟨hsteady, hrepeats⟩ := repeats_of_attempts (k := someBody.notificationId)
      (hv.mono fun _ _ hg => (Bool.and_eq_true_iff.mp hg).1) hattempts
    refine ⟨hsteady, hrepeats, fun hcut => ?_⟩
    cases b with
    | task t o =>
      cases t with
      | request m =>
        obtain ⟨r, hr, -, hcut⟩ := hcut
        simp [publishesOrFails, hr, hcut] at hends
      | _ => exact hcut
    | crash _ => cases hattempts
    | _ => exact hcut
  have huser : someUser = someBody.userId.str := by decide
  exact ⟨w, hrun, hraised, retries_complete hreach hs (huser ▸ hreg) hdone hr hk hpc⟩

/-- The first attempt has committed its row when the registry does not answer. -/
def halfFinishedRun : List Action :=
  soloRun ++ Action.submit 0 "a" someBody ++
    [.insert 0 newYear, .ok (.request 0), .fail (.request 0)] ++ Action.submit 1 "a" someBody

/-- The retry is answered from the dedup key and nothing is ever sent. -/
theorem retries_do_not_complete : ∃ w s r, Reach (platform plainEnv) (fun w a =>
      steadyFor someBody.userId.str w a ∧
      repeats someBody.userId someBody.notificationId 0 w a) w ∧
    w.sessions 0 = some s ∧ s.pc.registered? = some someBody.userId.str ∧
    w.processed s.instanceId ∧ w.requests 1 = some r ∧
    r.body.notificationId = someBody.notificationId ∧
    r.pc = .returned ⟨someBody.notificationId, false, false⟩ ∧
    ¬ 0 < sendings 0 someBody.notificationId w.log := by
  have hmeets : (platform plainEnv).Meets (fun w a => twoAttempts w a = true) .empty
      halfFinishedRun := by decide
  obtain ⟨w, s, r, hrun, hs, hreg, hdone, hr, hk, hpc, hnone⟩ : ∃ w s r,
      (platform plainEnv).run .empty halfFinishedRun = some w ∧ w.sessions 0 = some s ∧
      s.pc.registered? = some someUser ∧ w.processed s.instanceId ∧ w.requests 1 = some r ∧
      r.body.notificationId = someBody.notificationId ∧
      r.pc = .returned ⟨someBody.notificationId, false, false⟩ ∧
      sendings 0 someBody.notificationId w.log = 0 :=
    ⟨_, _, _, rfl, rfl, rfl, ⟨rfl, _, rfl, rfl⟩, rfl, rfl, rfl, rfl⟩
  have hreach := (Reach.of_run .init hmeets hrun).mono_of_reach fun v b hv hg =>
    repeats_of_attempts (k := someBody.notificationId) hv hg
  have huser : someUser = someBody.userId.str := by decide
  exact ⟨w, s, r, hreach, hs, huser ▸ hreg, hdone, hr, hk, hpc, by omega⟩

end RealtimeNotify.App
