import RealtimeNotify.App.World

/-!
# What a step can do

`Stepped` is the inversion of `World.step`, one constructor an action. From it,
once each: what a step does to the shared state and the log, to a session, to a
request, to a ticket request and to a process. Every invariant argues from these.
-/

namespace RealtimeNotify.App

open RealtimeNotify.Lib RealtimeNotify.Python

variable {env : Env} {w w' : World} {a : Action}

inductive Stepped (env : Env) (w : World) : Action → World → Prop where
  | tick {d} : Stepped env w (.tick d) { w with shared := w.shared.elapse d }
  | expireDedup {n} :
      Stepped env w (.expireDedup n) { w with shared := w.shared.evict (dedupKey n) }
  | boot {i} : w.processes i = none → Stepped env w (.boot i) (w.setProcess i .start)
  | crash {i} : w.processes i ≠ none → Stepped env w (.crash i) (w.crash i)
  | connect {n i c ticket} : w.serves i = true → w.sessions n = none →
      Stepped env w (.connect n i c ticket) (w.setSession n ⟨i, c, .redeem ticket⟩)
  | post {n i client body} : w.serves i = true → w.requests n = none →
      Stepped env w (.post n i client body) (w.setRequest n ⟨i, client, body, .allow⟩)
  | issue {n i claims token} : w.serves i = true → w.ticketRequests n = none →
      Stepped env w (.issue n i claims token)
        (w.addTicketRequest n ⟨i, claims, token, .start claims token⟩)
  | session {n s o sh pc e} : w.sessions n = some s →
      Advances semantics w.shared (s.pc.next env n s.instanceId s.connectionId) o sh pc e →
      Stepped env w (.task (.session n) o)
        { w.setSession n { s with pc } with
          shared := sh, log := ⟨w.shared.now, .session n, e⟩ :: w.log }
  | request {n r o sh pc e} : w.requests n = some r →
      Advances semantics w.shared (r.pc.next env r.client r.body) o sh pc e →
      Stepped env w (.task (.request n) o)
        { w.setRequest n { r with pc } with
          shared := sh, log := ⟨w.shared.now, .request n, e⟩ :: w.log }
  | ticketRequest {n r o sh pc e} : w.ticketRequests n = some r →
      Advances semantics w.shared (r.pc.next env) o sh pc e →
      Stepped env w (.task (.ticketRequest n) o)
        { w.setTicketRequest n { r with pc } with
          shared := sh, log := ⟨w.shared.now, .ticketRequest n, e⟩ :: w.log }
  | subscriber {i p o sh pc e} : w.processes i = some p → p.lifespan.listens = true →
      Advances semantics w.shared (p.subscriber.next i) o sh pc e →
      Stepped env w (.task (.subscriber i) o)
        { w.setProcess i { p with subscriber := pc } with
          shared := sh, log := ⟨w.shared.now, .subscriber i, e⟩ :: w.log }
  | lifespan {i p o sh pc e} : w.processes i = some p →
      Advances semantics w.shared (p.lifespan.next env i) o sh pc e →
      Stepped env w (.task (.lifespan i) o)
        { w.setProcess i { p with lifespan := pc } with
          shared := sh, log := ⟨w.shared.now, .lifespan i, e⟩ :: w.log }
  | liveness {i p o sh pc e} : w.processes i = some p → p.lifespan.beats = true →
      Advances semantics w.shared (p.liveness.next env i) o sh pc e →
      Stepped env w (.task (.liveness i) o)
        { w.setProcess i { p with liveness := pc } with
          shared := sh, log := ⟨w.shared.now, .liveness i, e⟩ :: w.log }

theorem World.advance_eq_some {Pc : Type} {id : TaskId} {next : Step Pc} {o : Outcome Choice}
    {put : Pc → World} (h : w.advance id next o put = some w') :
    ∃ sh pc e, Advances semantics w.shared next o sh pc e ∧
      w' = { put pc with shared := sh, log := ⟨w.shared.now, id, e⟩ :: w.log } := by
  simp only [World.advance, Option.map_eq_some_iff] at h
  obtain ⟨⟨sh, pc, e⟩, hadv, rfl⟩ := h
  exact ⟨sh, pc, e, Semantics.advances_of_eq hadv, rfl⟩

/-- Every step is one of the cases of `Stepped`. -/
theorem World.stepped (h : w.step env a = some w') : Stepped env w a w' := by
  cases a with
  | tick d =>
    obtain rfl := by simpa [World.step] using h
    exact .tick
  | expireDedup n =>
    obtain rfl := by simpa [World.step] using h
    exact .expireDedup
  | boot i =>
    simp only [World.step, Option.ite_none_right_eq_some, Option.some.injEq] at h
    obtain ⟨hp, rfl⟩ := h
    exact .boot hp
  | crash i =>
    simp only [World.step, Option.ite_none_left_eq_some, Option.some.injEq] at h
    obtain ⟨hp, rfl⟩ := h
    exact .crash hp
  | connect n i c ticket =>
    simp only [World.step, Option.ite_none_right_eq_some, Option.some.injEq, Bool.and_eq_true,
      Option.isNone_iff_eq_none] at h
    obtain ⟨⟨hi, hn⟩, rfl⟩ := h
    exact .connect hi hn
  | post n i client body =>
    simp only [World.step, Option.ite_none_right_eq_some, Option.some.injEq, Bool.and_eq_true,
      Option.isNone_iff_eq_none] at h
    obtain ⟨⟨hi, hn⟩, rfl⟩ := h
    exact .post hi hn
  | issue n i claims token =>
    simp only [World.step, Option.ite_none_right_eq_some, Option.some.injEq, Bool.and_eq_true,
      Option.isNone_iff_eq_none] at h
    obtain ⟨⟨hi, hn⟩, rfl⟩ := h
    exact .issue hi hn
  | task id o =>
    cases id with
    | session n =>
      simp only [World.step, World.stepTask, Option.bind_eq_some_iff] at h
      obtain ⟨s, hs, h⟩ := h
      obtain ⟨sh, pc, e, hadv, rfl⟩ := World.advance_eq_some h
      exact .session hs hadv
    | request n =>
      simp only [World.step, World.stepTask, Option.bind_eq_some_iff] at h
      obtain ⟨r, hr, h⟩ := h
      obtain ⟨sh, pc, e, hadv, rfl⟩ := World.advance_eq_some h
      exact .request hr hadv
    | ticketRequest n =>
      simp only [World.step, World.stepTask, Option.bind_eq_some_iff] at h
      obtain ⟨r, hr, h⟩ := h
      obtain ⟨sh, pc, e, hadv, rfl⟩ := World.advance_eq_some h
      exact .ticketRequest hr hadv
    | subscriber i =>
      simp only [World.step, World.stepTask, Option.bind_eq_some_iff,
        Option.ite_none_right_eq_some] at h
      obtain ⟨p, hp, hl, h⟩ := h
      obtain ⟨sh, pc, e, hadv, rfl⟩ := World.advance_eq_some h
      exact .subscriber hp hl hadv
    | lifespan i =>
      simp only [World.step, World.stepTask, Option.bind_eq_some_iff] at h
      obtain ⟨p, hp, h⟩ := h
      obtain ⟨sh, pc, e, hadv, rfl⟩ := World.advance_eq_some h
      exact .lifespan hp hadv
    | liveness i =>
      simp only [World.step, World.stepTask, Option.bind_eq_some_iff,
        Option.ite_none_right_eq_some] at h
      obtain ⟨p, hp, hl, h⟩ := h
      obtain ⟨sh, pc, e, hadv, rfl⟩ := World.advance_eq_some h
      exact .liveness hp hl hadv

section

variable {n : Nat} {i : String}

theorem World.awaits_session {s : Session} (h : w.sessions n = some s) :
    w.awaits env (.session n) = (s.pc.next env n s.instanceId s.connectionId).op? := by
  simp [awaits, h]

theorem World.awaits_request {r : PostRequest} (h : w.requests n = some r) :
    w.awaits env (.request n) = (r.pc.next env r.client r.body).op? := by
  simp [awaits, h]

theorem World.awaits_ticketRequest {r : TicketRequest} (h : w.ticketRequests n = some r) :
    w.awaits env (.ticketRequest n) = (r.pc.next env).op? := by
  simp [awaits, h]

theorem World.awaits_subscriber (env : Env) {p : Process} (h : w.processes i = some p) :
    w.awaits env (.subscriber i) = (p.subscriber.next i).op? := by
  simp [awaits, h]

theorem World.awaits_lifespan {p : Process} (h : w.processes i = some p) :
    w.awaits env (.lifespan i) = (p.lifespan.next env i).op? := by
  simp [awaits, h]

theorem World.awaits_liveness {p : Process} (h : w.processes i = some p) :
    w.awaits env (.liveness i) = (p.liveness.next env i).op? := by
  simp [awaits, h]

end

/-- Which task awaits which operation, and in which state. -/
inductive Awaiting (env : Env) (w : World) : TaskId → Op → Prop where
  | session {n s op} : w.sessions n = some s →
      (s.pc.next env n s.instanceId s.connectionId).op? = some op → Awaiting env w (.session n) op
  | request {n r op} : w.requests n = some r →
      (r.pc.next env r.client r.body).op? = some op → Awaiting env w (.request n) op
  | ticketRequest {n r op} : w.ticketRequests n = some r →
      (r.pc.next env).op? = some op → Awaiting env w (.ticketRequest n) op
  | subscriber {i p op} : w.processes i = some p →
      (p.subscriber.next i).op? = some op → Awaiting env w (.subscriber i) op
  | lifespan {i p op} : w.processes i = some p →
      (p.lifespan.next env i).op? = some op → Awaiting env w (.lifespan i) op
  | liveness {i p op} : w.processes i = some p →
      (p.liveness.next env i).op? = some op → Awaiting env w (.liveness i) op

theorem World.awaiting {id : TaskId} {op : Op} (h : w.awaits env id = some op) :
    Awaiting env w id op := by
  cases id with
  | session n =>
    obtain ⟨s, hs, hop⟩ := Option.bind_eq_some_iff.mp h
    exact .session hs hop
  | request n =>
    obtain ⟨r, hr, hop⟩ := Option.bind_eq_some_iff.mp h
    exact .request hr hop
  | ticketRequest n =>
    obtain ⟨r, hr, hop⟩ := Option.bind_eq_some_iff.mp h
    exact .ticketRequest hr hop
  | subscriber i =>
    obtain ⟨p, hp, hop⟩ := Option.bind_eq_some_iff.mp h
    exact .subscriber hp hop
  | lifespan i =>
    obtain ⟨p, hp, hop⟩ := Option.bind_eq_some_iff.mp h
    exact .lifespan hp hop
  | liveness i =>
    obtain ⟨p, hp, hop⟩ := Option.bind_eq_some_iff.mp h
    exact .liveness hp hop

/-! ## The shared state and the log -/

/-- What a step does to the shared state and the log. -/
inductive Touched (env : Env) (w : World) : Action → Shared → List Event → Prop where
  | tick {d} : Touched env w (.tick d) (w.shared.elapse d) w.log
  | expireDedup {n} : Touched env w (.expireDedup n) (w.shared.evict (dedupKey n)) w.log
  | crash {i} :
      Touched env w (.crash i) ((w.shared.setChannel i none).setConnections i []) w.log
  | started {b : Action} : (∀ id o, b ≠ .task id o) → Touched env w b w.shared w.log
  | returned {id op c sh reply} : w.awaits env id = some op →
      w.shared.exec op c = some (sh, reply) →
      Touched env w (.task id (.ok c)) sh (⟨w.shared.now, id, .returned op reply⟩ :: w.log)
  | raised {id op} : w.awaits env id = some op → op.fallible = true →
      Touched env w (.task id .fail) w.shared (⟨w.shared.now, id, .raised op false⟩ :: w.log)
  | applied {id op c sh reply} : w.awaits env id = some op → op.fallible = true →
      w.shared.exec op c = some (sh, reply) →
      Touched env w (.task id (.failApplied c)) sh
        (⟨w.shared.now, id, .raised op true⟩ :: w.log)

theorem Touched.of_advances {Pc : Type} {id : TaskId} {next : Step Pc} {o : Outcome Choice}
    {sh : Shared} {pc : Pc} {e : Happened Op Op.Reply} (ha : w.awaits env id = next.op?)
    (h : Advances semantics w.shared next o sh pc e) :
    Touched env w (.task id o) sh (⟨w.shared.now, id, e⟩ :: w.log) := by
  cases h with
  | returned hn hx => exact .returned (by rw [ha, hn]; rfl) hx
  | raised hn hf => exact .raised (by rw [ha, hn]; rfl) hf
  | applied hn hf hx => exact .applied (by rw [ha, hn]; rfl) hf hx

theorem Stepped.touched (h : Stepped env w a w') :
    ∃ sh log, w'.shared = sh ∧ w'.log = log ∧ Touched env w a sh log := by
  refine ⟨_, _, rfl, rfl, ?_⟩
  cases h with
  | tick => exact .tick
  | expireDedup => exact .expireDedup
  | boot _ => exact .started (by simp)
  | crash _ => exact .crash
  | connect _ _ => exact .started (by simp)
  | post _ _ => exact .started (by simp)
  | issue _ _ => exact .started (by simp)
  | session hs hadv => exact .of_advances (World.awaits_session hs) hadv
  | request hr hadv => exact .of_advances (World.awaits_request hr) hadv
  | ticketRequest hr hadv => exact .of_advances (World.awaits_ticketRequest hr) hadv
  | subscriber hp _ hadv => exact .of_advances (World.awaits_subscriber env hp) hadv
  | lifespan hp hadv => exact .of_advances (World.awaits_lifespan hp) hadv
  | liveness hp _ hadv => exact .of_advances (World.awaits_liveness hp) hadv

theorem Stepped.log_cases (h : Stepped env w a w') :
    w'.log = w.log ∨ ∃ e, w'.log = e :: w.log := by
  obtain ⟨sh, log, -, hlog, ht⟩ := h.touched
  cases ht with
  | tick | expireDedup | crash | started _ => exact .inl hlog
  | returned _ _ | raised _ _ | applied _ _ _ => exact .inr ⟨_, hlog⟩

theorem Stepped.log_subset (h : Stepped env w a w') : w.log ⊆ w'.log := by
  rcases h.log_cases with hlog | ⟨e, hlog⟩
  · rw [hlog]
    exact List.Subset.refl _
  · rw [hlog]
    exact List.subset_cons_self e w.log

/-- An operation that took effect did so before, or is the one its task awaited. -/
theorem Stepped.effect_cases (h : Stepped env w a w') {e : Event} (he : e ∈ w'.log) {op : Op}
    (heff : e.what.effect = some op) : e ∈ w.log ∨ w.awaits env e.task = some op := by
  obtain ⟨sh, log, -, hlog, ht⟩ := h.touched
  rw [hlog] at he
  cases ht with
  | tick | expireDedup | crash | started _ => exact .inl he
  | raised _ _ =>
    rcases List.mem_cons.mp he with rfl | he
    · simp [Happened.effect] at heff
    · exact .inl he
  | returned ha _ | applied ha _ _ =>
    rcases List.mem_cons.mp he with rfl | he
    · obtain rfl := by simpa [Happened.effect] using heff
      exact .inr ha
    · exact .inl he

/-- What the new event did is what its task awaited. -/
theorem Stepped.head_effect (h : Stepped env w a w') {e : Event} (hlog : w'.log = e :: w.log)
    {op : Op} (heff : e.what.effect = some op) : w.awaits env e.task = some op := by
  obtain ⟨sh, log, -, hl, ht⟩ := h.touched
  rw [hlog] at hl
  cases ht with
  | tick | expireDedup | crash | started _ => simp at hl
  | raised _ _ =>
    obtain ⟨rfl, -⟩ := by simpa using hl
    cases heff
  | returned ha _ | applied ha _ _ =>
    obtain ⟨rfl, -⟩ := by simpa using hl
    obtain rfl := Option.some.inj heff
    exact ha

/-- A step of another task adds no event to those of `id`. -/
theorem Stepped.mem_of_task (h : Stepped env w a w') {id : TaskId}
    (ha : ∀ o, a ≠ .task id o) {e : Event} (he : e ∈ w'.log) (htask : e.task = id) :
    e ∈ w.log := by
  obtain ⟨sh, log, -, hlog, ht⟩ := h.touched
  rw [hlog] at he
  cases ht with
  | tick | expireDedup | crash | started _ => exact he
  | @returned _ _ c _ _ _ _ =>
    rcases List.mem_cons.mp he with rfl | he
    · exact absurd rfl (htask ▸ ha (.ok c))
    · exact he
  | raised _ _ =>
    rcases List.mem_cons.mp he with rfl | he
    · exact absurd rfl (htask ▸ ha .fail)
    · exact he
  | @applied _ _ c _ _ _ _ _ =>
    rcases List.mem_cons.mp he with rfl | he
    · exact absurd rfl (htask ▸ ha (.failApplied c))
    · exact he

/-! ## One session -/

/-- How session `n` came to be what it is after a step. -/
inductive SessionCase (env : Env) (w : World) (a : Action) (w' : World) (n : Nat) :
    Session → Prop where
  | same {s} : w.sessions n = some s → (∀ o, a ≠ .task (.session n) o) →
      a ≠ .crash s.instanceId → SessionCase env w a w' n s
  | new {i c ticket} : w.sessions n = none → w.serves i = true →
      a = .connect n i c ticket → w'.log = w.log →
      SessionCase env w a w' n ⟨i, c, .redeem ticket⟩
  | killed {s} : w.sessions n = some s → a = .crash s.instanceId → w'.log = w.log →
      SessionCase env w a w' n { s with pc := .ended }
  | moved {s o sh pc e} : w.sessions n = some s → a = .task (.session n) o →
      Advances semantics w.shared (s.pc.next env n s.instanceId s.connectionId) o sh pc e →
      w'.shared = sh → w'.log = ⟨w.shared.now, .session n, e⟩ :: w.log →
      SessionCase env w a w' n { s with pc }

theorem Stepped.session_cases (h : Stepped env w a w') {n : Nat} {s' : Session}
    (hs' : w'.sessions n = some s') : SessionCase env w a w' n s' := by
  cases h with
  | tick | expireDedup | boot _ | post _ _ | issue _ _ => exact .same hs' (by simp) (by simp)
  | request _ _ | ticketRequest _ _ | subscriber _ _ _ | lifespan _ _ | liveness _ _ _ =>
    exact .same hs' (by simp) (by simp)
  | @crash i hi =>
    simp only [World.crash, World.killAll, Option.map_eq_some_iff] at hs'
    obtain ⟨s, hs, rfl⟩ := hs'
    by_cases hsi : s.instanceId = i
    · rw [if_pos hsi]
      exact .killed hs (by rw [hsi]) rfl
    · rw [if_neg hsi]
      exact .same hs (by simp) (by simpa using Ne.symm hsi)
  | @connect m i c ticket hi hm =>
    by_cases hnm : n = m
    · subst hnm
      obtain rfl := by simpa [World.setSession] using hs'
      exact .new hm hi rfl rfl
    · exact .same (by simpa [World.setSession, hnm] using hs') (by simp) (by simp)
  | @session m s o sh pc e hs hadv =>
    by_cases hnm : n = m
    · subst hnm
      obtain rfl := by simpa [World.setSession] using hs'
      exact .moved hs rfl hadv rfl rfl
    · exact .same (by simpa [World.setSession, hnm] using hs') (by simp [Ne.symm hnm]) (by simp)

/-- Sessions stay. -/
theorem Stepped.session_next (h : Stepped env w a w') {n : Nat} {s : Session}
    (hs : w.sessions n = some s) : ∃ s', w'.sessions n = some s' := by
  cases h with
  | crash _ =>
    exact Option.isSome_iff_exists.mp (by simp [World.crash, World.killAll, hs])
  | @connect m _ _ _ _ hm =>
    have hnm : n ≠ m := by
      rintro rfl
      simp [hm] at hs
    exact ⟨s, by simpa [World.setSession, hnm] using hs⟩
  | @session m s' _ _ pc _ hs' _ =>
    by_cases hnm : n = m
    · exact ⟨{ s' with pc }, by simp [World.setSession, hnm]⟩
    · exact ⟨s, by simpa [World.setSession, hnm] using hs⟩
  | _ => exact ⟨s, hs⟩

/-- What becomes of a session in a step. -/
inductive SessionMove (env : Env) (w : World) (a : Action) (w' : World) (n : Nat) (s : Session) :
    Session → Prop where
  | same : (∀ o, a ≠ .task (.session n) o) → a ≠ .crash s.instanceId →
      SessionMove env w a w' n s s
  | killed : a = .crash s.instanceId → w'.log = w.log →
      SessionMove env w a w' n s { s with pc := .ended }
  | moved {o sh pc e} : a = .task (.session n) o →
      Advances semantics w.shared (s.pc.next env n s.instanceId s.connectionId) o sh pc e →
      w'.shared = sh → w'.log = ⟨w.shared.now, .session n, e⟩ :: w.log →
      SessionMove env w a w' n s { s with pc }

theorem Stepped.session_move (h : Stepped env w a w') {n : Nat} {s : Session}
    (hs : w.sessions n = some s) :
    ∃ s', w'.sessions n = some s' ∧ SessionMove env w a w' n s s' := by
  obtain ⟨s', hs'⟩ := h.session_next hs
  refine ⟨s', hs', ?_⟩
  cases h.session_cases hs' with
  | same hold hne hcrash =>
    obtain rfl := Option.some.inj (hs.symm.trans hold)
    exact .same hne hcrash
  | new hnone _ _ _ => simp [hnone] at hs
  | killed hold hcrash hlog =>
    obtain rfl := Option.some.inj (hs.symm.trans hold)
    exact .killed hcrash hlog
  | moved hold ha hadv hsh hlog =>
    obtain rfl := Option.some.inj (hs.symm.trans hold)
    exact .moved ha hadv hsh hlog

/-- The step of a session is that of its handler. -/
theorem Stepped.session_own (h : Stepped env w a w') {n : Nat} {s : Session} {o : Outcome Choice}
    (ha : a = .task (.session n) o) (hs : w.sessions n = some s) :
    ∃ sh pc e, w'.sessions n = some { s with pc } ∧
      Advances semantics w.shared (s.pc.next env n s.instanceId s.connectionId) o sh pc e := by
  obtain ⟨s', hs', hmove⟩ := h.session_move hs
  cases hmove with
  | same hne _ => exact absurd ha (hne o)
  | killed hcrash _ => cases ha.symm.trans hcrash
  | moved ha' hadv _ _ =>
    cases ha.symm.trans ha'
    exact ⟨_, _, _, hs', hadv⟩

/-- A session that is leaving goes on to leave, a registered one stays so or
leaves, and its instance is fixed. -/
theorem Stepped.session_course (h : Stepped env w a w') {n : Nat} {s : Session}
    (hs : w.sessions n = some s) :
    ∃ s', w'.sessions n = some s' ∧ s'.instanceId = s.instanceId ∧
      (s.pc.leaving = true → s'.pc.leaving = true) ∧
      ∀ u, (s.pc.connected? = some u → s'.pc.connected? = some u ∨ s'.pc.leaving = true) ∧
        (s.pc.registered? = some u → s'.pc.registered? = some u ∨ s'.pc.leaving = true) := by
  obtain ⟨s', hs', hmove⟩ := h.session_move hs
  refine ⟨s', hs', ?_⟩
  cases hmove with
  | same _ _ => exact ⟨rfl, id, fun u => ⟨.inl, .inl⟩⟩
  | killed _ _ => exact ⟨rfl, fun _ => rfl, fun u => ⟨fun _ => .inr rfl, fun _ => .inr rfl⟩⟩
  | moved _ hadv _ _ =>
    cases hadv with
    | returned hn _ =>
      exact ⟨rfl, fun hl => GatewayPc.leaving_next hn hl, fun u =>
        ⟨fun hu => GatewayPc.connected_next hn hu, fun hu => GatewayPc.registered_next hn hu⟩⟩
    | raised hn _ =>
      have hl := GatewayPc.leaving_raised hn
      exact ⟨rfl, fun _ => hl, fun u => ⟨fun _ => .inr hl, fun _ => .inr hl⟩⟩
    | applied hn _ _ =>
      have hl := GatewayPc.leaving_raised hn
      exact ⟨rfl, fun _ => hl, fun u => ⟨fun _ => .inr hl, fun _ => .inr hl⟩⟩

/-! ## One request -/

/-- How request `n` came to be what it is after a step. -/
inductive RequestCase (env : Env) (w : World) (a : Action) (w' : World) (n : Nat) :
    PostRequest → Prop where
  | same {r} : w.requests n = some r → (∀ o, a ≠ .task (.request n) o) →
      RequestCase env w a w' n r
  | new {i client body} : w.requests n = none → w'.log = w.log → w'.shared = w.shared →
      RequestCase env w a w' n ⟨i, client, body, .allow⟩
  | killed {r} : w.requests n = some r → w'.log = w.log →
      RequestCase env w a w' n { r with pc := r.pc.kill }
  | moved {r o sh pc e} : w.requests n = some r → a = .task (.request n) o →
      Advances semantics w.shared (r.pc.next env r.client r.body) o sh pc e →
      w'.shared = sh → w'.log = ⟨w.shared.now, .request n, e⟩ :: w.log →
      RequestCase env w a w' n { r with pc }

theorem Stepped.request_cases (h : Stepped env w a w') {n : Nat} {r' : PostRequest}
    (hr' : w'.requests n = some r') : RequestCase env w a w' n r' := by
  cases h with
  | tick | expireDedup | boot _ | connect _ _ | issue _ _ => exact .same hr' (by simp)
  | session _ _ | ticketRequest _ _ | subscriber _ _ _ | lifespan _ _ | liveness _ _ _ =>
    exact .same hr' (by simp)
  | @crash i hi =>
    simp only [World.crash, World.killAll, Option.map_eq_some_iff] at hr'
    obtain ⟨r, hr, rfl⟩ := hr'
    by_cases hri : r.instanceId = i
    · rw [if_pos hri]
      exact .killed hr rfl
    · rw [if_neg hri]
      exact .same hr (by simp)
  | @post m i client body hi hm =>
    by_cases hnm : n = m
    · subst hnm
      obtain rfl := by simpa [World.setRequest] using hr'
      exact .new hm rfl rfl
    · exact .same (by simpa [World.setRequest, hnm] using hr') (by simp)
  | @request m r o sh pc e hr hadv =>
    by_cases hnm : n = m
    · subst hnm
      obtain rfl := by simpa [World.setRequest] using hr'
      exact .moved hr rfl hadv rfl rfl
    · exact .same (by simpa [World.setRequest, hnm] using hr') (by simp [Ne.symm hnm])

/-- Requests stay, with what they were posted with. -/
theorem Stepped.request_next (h : Stepped env w a w') {n : Nat} {r : PostRequest}
    (hr : w.requests n = some r) : ∃ r', w'.requests n = some r' ∧ r'.body = r.body := by
  cases h with
  | crash _ =>
    refine ⟨_, by simp only [World.crash, World.killAll, hr, Option.map_some]; rfl, ?_⟩
    split <;> rfl
  | @post m _ _ _ _ hm =>
    have hnm : n ≠ m := by
      rintro rfl
      simp [hm] at hr
    exact ⟨r, by simpa [World.setRequest, hnm] using hr, rfl⟩
  | @request m r' _ _ pc _ hr' _ =>
    by_cases hnm : n = m
    · subst hnm
      obtain rfl := Option.some.inj (hr.symm.trans hr')
      exact ⟨{ r with pc }, by simp [World.setRequest], rfl⟩
    · exact ⟨r, by simpa [World.setRequest, hnm] using hr, rfl⟩
  | _ => exact ⟨r, hr, rfl⟩

/-! ## One ticket request -/

/-- How ticket request `n` came to be what it is after a step. -/
inductive TicketCase (env : Env) (w : World) (a : Action) (w' : World) (n : Nat) :
    TicketRequest → Prop where
  | same {r} : w.ticketRequests n = some r → (∀ o, a ≠ .task (.ticketRequest n) o) →
      TicketCase env w a w' n r
  | new {i claims token} : w.ticketRequests n = none → a = .issue n i claims token →
      w'.log = w.log → w'.tokens = token :: w.tokens →
      TicketCase env w a w' n ⟨i, claims, token, .start claims token⟩
  | killed {r} : w.ticketRequests n = some r → w'.log = w.log →
      TicketCase env w a w' n { r with pc := r.pc.kill }
  | moved {r o sh pc e} : w.ticketRequests n = some r → a = .task (.ticketRequest n) o →
      Advances semantics w.shared (r.pc.next env) o sh pc e →
      w'.shared = sh → w'.log = ⟨w.shared.now, .ticketRequest n, e⟩ :: w.log →
      TicketCase env w a w' n { r with pc }

theorem Stepped.ticket_cases (h : Stepped env w a w') {n : Nat} {r' : TicketRequest}
    (hr' : w'.ticketRequests n = some r') : TicketCase env w a w' n r' := by
  cases h with
  | tick | expireDedup | boot _ | connect _ _ | post _ _ => exact .same hr' (by simp)
  | session _ _ | request _ _ | subscriber _ _ _ | lifespan _ _ | liveness _ _ _ =>
    exact .same hr' (by simp)
  | @crash i hi =>
    simp only [World.crash, World.killAll, Option.map_eq_some_iff] at hr'
    obtain ⟨r, hr, rfl⟩ := hr'
    by_cases hri : r.instanceId = i
    · rw [if_pos hri]
      exact .killed hr rfl
    · rw [if_neg hri]
      exact .same hr (by simp)
  | @issue m i claims token hi hm =>
    by_cases hnm : n = m
    · subst hnm
      obtain rfl := by simpa [World.addTicketRequest, World.setTicketRequest] using hr'
      exact .new hm rfl rfl rfl
    · have hr : w.ticketRequests n = some r' := by
        simpa [World.addTicketRequest, World.setTicketRequest, hnm] using hr'
      exact .same hr (by simp)
  | @ticketRequest m r o sh pc e hr hadv =>
    by_cases hnm : n = m
    · subst hnm
      obtain rfl := by simpa [World.setTicketRequest] using hr'
      exact .moved hr rfl hadv rfl rfl
    · exact .same (by simpa [World.setTicketRequest, hnm] using hr') (by simp [Ne.symm hnm])

/-- Ticket requests stay, with their claims and token. -/
theorem Stepped.ticket_next (h : Stepped env w a w') {n : Nat} {r : TicketRequest}
    (hr : w.ticketRequests n = some r) :
    ∃ r', w'.ticketRequests n = some r' ∧ r'.token = r.token ∧ r'.claims = r.claims := by
  cases h with
  | crash _ =>
    refine ⟨_, by simp only [World.crash, World.killAll, hr, Option.map_some]; rfl, ?_⟩
    split <;> exact ⟨rfl, rfl⟩
  | @issue m _ _ _ _ hm =>
    have hnm : n ≠ m := by
      rintro rfl
      simp [hm] at hr
    exact ⟨r, by simpa [World.addTicketRequest, World.setTicketRequest, hnm] using hr, rfl, rfl⟩
  | @ticketRequest m r' _ _ pc _ hr' _ =>
    by_cases hnm : n = m
    · subst hnm
      obtain rfl := Option.some.inj (hr.symm.trans hr')
      exact ⟨{ r with pc }, by simp [World.setTicketRequest], rfl, rfl⟩
    · exact ⟨r, by simpa [World.setTicketRequest, hnm] using hr, rfl, rfl⟩
  | _ => exact ⟨r, hr, rfl, rfl⟩

/-- A ticket request after a step is an old one, awaiting nothing new, or was
just made. -/
theorem Stepped.ticket_origin (h : Stepped env w a w') {n : Nat} {r' : TicketRequest}
    (hr' : w'.ticketRequests n = some r') :
    (∃ r, w.ticketRequests n = some r ∧ r.token = r'.token ∧ r.claims = r'.claims ∧
      ∀ u t, r'.pc = .issue u t → r.pc = .issue u t ∧ ∀ o, a ≠ .task (.ticketRequest n) o) ∨
    ∃ i, a = .issue n i r'.claims r'.token ∧ w.ticketRequests n = none ∧
      r'.pc = .start r'.claims r'.token ∧ w'.log = w.log ∧ w'.tokens = r'.token :: w.tokens := by
  cases h.ticket_cases hr' with
  | same hr hne => exact .inl ⟨r', hr, rfl, rfl, fun u t hpc => ⟨hpc, hne⟩⟩
  | new hnone ha hlog htok => exact .inr ⟨_, ha, hnone, rfl, hlog, htok⟩
  | @killed r hr _ =>
    refine .inl ⟨r, hr, rfl, rfl, fun u t hpc => ?_⟩
    cases hrpc : r.pc <;> simp [hrpc, IssuePc.kill] at hpc
  | @moved r _ _ _ _ hr _ hadv _ _ =>
    refine .inl ⟨r, hr, rfl, rfl, fun u t hpc => ?_⟩
    cases hadv with
    | returned hn _ | raised hn _ | applied hn _ _ =>
      cases hrpc : r.pc <;> rw [hrpc] at hn <;> cases hn
      simp at hpc

theorem Stepped.mem_tokens (h : Stepped env w a w') {token : String} (ht : token ∈ w.tokens) :
    token ∈ w'.tokens := by
  cases h with
  | issue _ _ => exact List.mem_cons_of_mem _ ht
  | _ => exact ht

/-! ## One process -/

/-- How the process `i` came to be what it is after a step. -/
inductive ProcessCase (env : Env) (w : World) (a : Action) (w' : World) (i : String) :
    Process → Prop where
  | same {p} : w.processes i = some p → ProcessCase env w a w' i p
  | new : w.processes i = none → w'.shared = w.shared → w'.log = w.log →
      ProcessCase env w a w' i .start
  | subscriber {p o sh pc e} : w.processes i = some p → a = .task (.subscriber i) o →
      p.lifespan.listens = true →
      Advances semantics w.shared (p.subscriber.next i) o sh pc e →
      w'.shared = sh → w'.log = ⟨w.shared.now, .subscriber i, e⟩ :: w.log →
      ProcessCase env w a w' i { p with subscriber := pc }
  | lifespan {p o sh pc e} : w.processes i = some p → a = .task (.lifespan i) o →
      Advances semantics w.shared (p.lifespan.next env i) o sh pc e →
      w'.shared = sh → w'.log = ⟨w.shared.now, .lifespan i, e⟩ :: w.log →
      ProcessCase env w a w' i { p with lifespan := pc }
  | liveness {p o sh pc e} : w.processes i = some p → a = .task (.liveness i) o →
      Advances semantics w.shared (p.liveness.next env i) o sh pc e →
      w'.shared = sh → w'.log = ⟨w.shared.now, .liveness i, e⟩ :: w.log →
      ProcessCase env w a w' i { p with liveness := pc }

theorem Stepped.process_cases (h : Stepped env w a w') {i : String} {p' : Process}
    (hp' : w'.processes i = some p') : ProcessCase env w a w' i p' := by
  cases h with
  | tick | expireDedup | connect _ _ | post _ _ | issue _ _ => exact .same hp'
  | session _ _ | request _ _ | ticketRequest _ _ => exact .same hp'
  | @boot j hj =>
    by_cases hij : i = j
    · subst hij
      obtain rfl := by simpa [World.setProcess] using hp'
      exact .new hj rfl rfl
    · exact .same (by simpa [World.setProcess, hij] using hp')
  | @crash j hj =>
    by_cases hij : i = j
    · simp [World.crash, hij] at hp'
    · exact .same (by simpa [World.crash, World.killAll, hij] using hp')
  | @subscriber j p o sh pc e hp hl hadv =>
    by_cases hij : i = j
    · subst hij
      obtain rfl := by simpa [World.setProcess] using hp'
      exact .subscriber hp rfl hl hadv rfl rfl
    · exact .same (by simpa [World.setProcess, hij] using hp')
  | @lifespan j p o sh pc e hp hadv =>
    by_cases hij : i = j
    · subst hij
      obtain rfl := by simpa [World.setProcess] using hp'
      exact .lifespan hp rfl hadv rfl rfl
    · exact .same (by simpa [World.setProcess, hij] using hp')
  | @liveness j p o sh pc e hp hl hadv =>
    by_cases hij : i = j
    · subst hij
      obtain rfl := by simpa [World.setProcess] using hp'
      exact .liveness hp rfl hadv rfl rfl
    · exact .same (by simpa [World.setProcess, hij] using hp')

/-- A process stays until it crashes, and only its own tasks move it. -/
theorem Stepped.process_next (h : Stepped env w a w') {i : String} {p : Process}
    (hp : w.processes i = some p) : a = .crash i ∨ ∃ p', w'.processes i = some p' ∧
      (p'.lifespan = p.lifespan ∨ ∃ o, a = .task (.lifespan i) o) ∧
      (p'.subscriber = p.subscriber ∨ ∃ o, a = .task (.subscriber i) o) := by
  have hother : ∀ {j q}, i ≠ j → (w.setProcess j q).processes i = some p := by
    intro j q hij
    simpa [World.setProcess, hij] using hp
  have hsame : w'.processes i = some p → ∃ p', w'.processes i = some p' ∧
      (p'.lifespan = p.lifespan ∨ ∃ o, a = .task (.lifespan i) o) ∧
      (p'.subscriber = p.subscriber ∨ ∃ o, a = .task (.subscriber i) o) := fun h' =>
    ⟨p, h', .inl rfl, .inl rfl⟩
  cases h with
  | tick | expireDedup | connect _ _ | post _ _ | issue _ _ | session _ _ | request _ _
  | ticketRequest _ _ => exact .inr (hsame hp)
  | @boot j hj =>
    have hij : i ≠ j := by
      rintro rfl
      simp [hj] at hp
    exact .inr (hsame (hother hij))
  | @crash j hj =>
    by_cases hij : i = j
    · exact .inl (by rw [hij])
    · exact .inr (hsame (by simpa [World.crash, World.killAll, hij] using hp))
  | @subscriber j q o sh pc e hq _ _ =>
    by_cases hij : i = j
    · subst hij
      obtain rfl := Option.some.inj (hp.symm.trans hq)
      exact .inr ⟨_, Function.update_self .., .inl rfl, .inr ⟨o, rfl⟩⟩
    · exact .inr (hsame (hother hij))
  | @lifespan j q o sh pc e hq _ =>
    by_cases hij : i = j
    · subst hij
      obtain rfl := Option.some.inj (hp.symm.trans hq)
      exact .inr ⟨_, Function.update_self .., .inr ⟨o, rfl⟩, .inl rfl⟩
    · exact .inr (hsame (hother hij))
  | @liveness j q o sh pc e hq _ _ =>
    by_cases hij : i = j
    · subst hij
      obtain rfl := Option.some.inj (hp.symm.trans hq)
      exact .inr ⟨_, Function.update_self .., .inl rfl, .inl rfl⟩
    · exact .inr (hsame (hother hij))

end RealtimeNotify.App
