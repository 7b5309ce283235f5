import RealtimeNotify.App.Frames
import RealtimeNotify.Lib.History

/-!
# The ticket exchange

What a redeem of a ticket would return is a function of the log: the issue that
nobody has redeemed since, while its time lasts. Redis agrees with it at every
moment from now on, which is the invariant.
-/

namespace RealtimeNotify.App

open RealtimeNotify.Lib RealtimeNotify.Python

variable {env : Env} {w w' : World} {a : Action} {t u : String}

/-! ## The events of a ticket -/

/-- The subject `t` was issued for, if the event is an issue of `t`. -/
def Event.issued? (t : String) (e : Event) : Option String :=
  match e.what.effect with
  | some (.redis (.set k u _)) => if k = ticketKey t then some u else none
  | _ => none

/-- The reply of a returned redeem of `t`. -/
def Event.redeemed? (t : String) (e : Event) : Option (Option String) :=
  match e.what with
  | .returned (.redis (.getdel k)) (reply : Option RedisValue) =>
      if k = ticketKey t then some (reply.map (·.decode)) else none
  | _ => none

/-- A redeem of `t` that got a user, or one whose reply was lost. -/
def Event.redeems (t : String) (e : Event) : Bool :=
  match e.what with
  | .raised (.redis (.getdel k)) true => k = ticketKey t
  | _ => e.redeemed? t |>.any (·.isSome)

/-- The issue of `t` that stands after one more event: for whom, and when. -/
def heldStep (t : String) (e : Event) (held : Option (String × Nat)) : Option (String × Nat) :=
  match e.issued? t with
  | some u => some (u, e.time)
  | none => if e.redeems t then none else held

def held (t : String) (log : List Event) : Option (String × Nat) := log.foldr (heldStep t) none

theorem held_cons {e : Event} {log : List Event} :
    held t (e :: log) = heldStep t e (held t log) := rfl

/-- Every ticket text is generated once. -/
def freshToken (w : World) : Action → Bool
  | .issue _ _ _ token => !w.tokens.contains token
  | _ => true

/-! ## Events that do not concern a ticket -/

/-- An event that is no command on the key of `t`. -/
def Event.Foreign (t : String) (e : Event) : Prop :=
  e.issued? t = none ∧ e.redeemed? t = none ∧ e.redeems t = false

theorem Event.foreign_raised {time : Nat} {id : TaskId} {op : Op} :
    Event.Foreign t ⟨time, id, .raised op false⟩ := by
  refine ⟨rfl, rfl, ?_⟩
  unfold Event.redeems
  split
  · simp_all
  · rfl

theorem Event.foreign_of_key {time : Nat} {id : TaskId} {op : Op} {what : Happened Op Op.Reply}
    (he : what.effect = some op) (h : ∀ cmd, op = .redis cmd → cmd.key ≠ ticketKey t) :
    Event.Foreign t ⟨time, id, what⟩ := by
  cases what with
  | returned op' reply =>
    obtain rfl := by simpa [Happened.effect] using he
    cases op' with
    | redis cmd =>
      have hk := h cmd rfl
      cases cmd with
      | set k v ex | getdel k =>
        simp only [RedisCmd.key] at hk
        simp [Foreign, issued?, redeemed?, redeems, Happened.effect, hk]
      | _ => exact ⟨rfl, rfl, rfl⟩
    | _ => exact ⟨rfl, rfl, rfl⟩
  | raised op' applied =>
    cases applied with
    | false => exact foreign_raised
    | true =>
      obtain rfl := by simpa [Happened.effect] using he
      cases op' with
      | redis cmd =>
        have hk := h cmd rfl
        cases cmd with
        | set k v ex | getdel k =>
          simp only [RedisCmd.key] at hk
          simp [Foreign, issued?, redeemed?, redeems, Happened.effect, hk]
        | _ => exact ⟨rfl, rfl, rfl⟩
      | _ => exact ⟨rfl, rfl, rfl⟩

theorem heldStep_foreign {e : Event} (h : e.Foreign t) {held : Option (String × Nat)} :
    heldStep t e held = held := by
  simp [heldStep, h.1, h.2.2]

/-! ## What a step does to a ticket -/

/-- The key of `t`, its issue and the log after a step. -/
inductive TicketStep (env : Env) (t : String) (w : World) (a : Action) (w' : World) : Prop where
  | kept : (∀ e, w'.log = e :: w.log → e.Foreign t) →
      w'.shared.redis (ticketKey t) = w.shared.redis (ticketKey t) →
      w.shared.now ≤ w'.shared.now → TicketStep env t w a w'
  | issued {n r u e o} : w.ticketRequests n = some r → r.pc = .issue u t →
      a = .task (.ticketRequest n) o → w'.log = e :: w.log → e.time = w.shared.now →
      e.task = .ticketRequest n →
      e.issued? t = some u → e.redeemed? t = none →
      w'.shared.redis (ticketKey t)
        = some ⟨.text u, some (w.shared.now + seconds env.wsTicketTtlSeconds)⟩ →
      w'.shared.now = w.shared.now → TicketStep env t w a w'
  | redeemed {n s e o} : w.sessions n = some s → s.pc = .redeem t →
      a = .task (.session n) o → w'.log = e :: w.log → e.time = w.shared.now →
      e.task = .session n → e.issued? t = none →
      (e.redeemed? t = some ((w.shared.redis.get w.shared.now (ticketKey t)).map (·.decode)) ∨
        e.redeemed? t = none ∧ e.redeems t = true) →
      w'.shared.redis (ticketKey t) = none → w'.shared.now = w.shared.now →
      TicketStep env t w a w'

theorem ticketStep_effect {id : TaskId} {op : Op} {o : Outcome Choice} {c : Choice} {sh : Shared}
    {reply : op.Reply} {what : Happened Op Op.Reply} (ha : w.awaits env id = some op)
    (hx : w.shared.exec op c = some (sh, reply))
    (he : what = .returned op reply ∨ what = .raised op true) (hw : w'.shared = sh)
    (hlog : w'.log = ⟨w.shared.now, id, what⟩ :: w.log) : TicketStep env t w (.task id o) w' := by
  have heff : what.effect = some op := by rcases he with rfl | rfl <;> rfl
  have hnow : w'.shared.now = w.shared.now := by rw [hw, Shared.exec_now hx]
  cases Shared.exec_key hx (ticketKey t) with
  | other hop hkept =>
    refine .kept (fun e h => ?_) ?_ (Nat.le_of_eq hnow.symm)
    · obtain ⟨rfl, -⟩ := by simpa using hlog.symm.trans h
      exact Event.foreign_of_key heff hop
    · rw [hw, hkept]
  | @sent cmd r _ hkey hcmd hsh =>
    subst hsh
    have hr : w'.shared.redis = r := by rw [hw]
    cases World.ticketCaller ha hkey with
    | redeem hs hpc =>
      obtain ⟨rfl, rfl⟩ := by simpa [RedisCmd.exec, WSTicketAuth.redeemTicket] using hcmd
      refine .redeemed hs hpc rfl hlog rfl rfl ?_ ?_ (by rw [hr, Store.erase_self]) hnow
      · rcases he with rfl | rfl <;> rfl
      · rcases he with rfl | rfl
        · exact .inl (by simp [Event.redeemed?, WSTicketAuth.redeemTicket])
        · exact .inr ⟨rfl, by simp [Event.redeems, WSTicketAuth.redeemTicket]⟩
    | issue htr hpc =>
      refine .issued htr hpc rfl hlog rfl rfl ?_ ?_ ?_ hnow
      · rcases he with rfl | rfl <;>
          simp [Event.issued?, Happened.effect, WSTicketAuth.issueTicket]
      · rcases he with rfl | rfl <;> rfl
      · rw [hr, RedisCmd.exec_set hcmd, Store.put_self]

theorem Stepped.ticketStep (h : Stepped env w a w') : TicketStep env t w a w' := by
  obtain ⟨sh, log, hsh, hlog, ht⟩ := h.touched
  cases ht with
  | tick =>
    exact .kept (by simp [hlog]) (by rw [hsh, Shared.elapse_redis]) (by simp [hsh])
  | @expireDedup n =>
    have hne : ticketKey t ≠ dedupKey n := ne_of_keyInitial (by simp)
    refine .kept (by simp [hlog]) ?_ (by simp [hsh])
    rw [hsh, Shared.evict_redis, Store.erase_ne hne]
  | crash => exact .kept (by simp [hlog]) (by rw [hsh]; rfl) (by rw [hsh]; exact Nat.le_refl _)
  | started _ => exact .kept (by simp [hlog]) (by rw [hsh]) (by rw [hsh])
  | raised _ _ =>
    refine .kept (fun e h => ?_) (by rw [hsh]) (by rw [hsh])
    obtain ⟨rfl, -⟩ := by simpa using hlog.symm.trans h
    exact Event.foreign_raised
  | returned ha hx => exact ticketStep_effect ha hx (.inl rfl) hsh hlog
  | applied ha _ hx => exact ticketStep_effect ha hx (.inr rfl) hsh hlog

/-- The event a step adds, if it is a returned redeem. -/
theorem Stepped.redeemed_cases (h : Stepped env w a w') {e : Event} {reply : Option String}
    (hlog : w'.log = e :: w.log) (he : e.redeemed? t = some reply) :
    ∃ n s o, w.sessions n = some s ∧ s.pc = .redeem t ∧ a = .task (.session n) o ∧
      e.task = .session n := by
  cases h.ticketStep (t := t) with
  | kept hforeign _ _ =>
    have hnone := (hforeign e hlog).2.1
    simp [hnone] at he
  | issued _ _ _ hlog' _ _ _ hnone _ _ =>
    obtain ⟨rfl, -⟩ := by simpa using hlog.symm.trans hlog'
    simp [hnone] at he
  | redeemed hs hpc ha hlog' _ htask _ _ _ _ =>
    obtain ⟨rfl, -⟩ := by simpa using hlog.symm.trans hlog'
    exact ⟨_, _, _, hs, hpc, ha, htask⟩

/-! ## Each ticket is issued once -/

/-- Where issues come from, while every text is generated once. -/
structure Mint (w : World) : Prop where
  known : ∀ n r, w.ticketRequests n = some r → r.token ∈ w.tokens
  distinct : ∀ n r n' r', w.ticketRequests n = some r → w.ticketRequests n' = some r' →
    r.token = r'.token → n = n'
  issuing : ∀ n r u t, w.ticketRequests n = some r → r.pc = .issue u t →
    t = r.token ∧ decodeUserId r.claims = .ok u ∧ ∀ e ∈ w.log, e.issued? t = none
  source : ∀ e ∈ w.log, ∀ t u, e.issued? t = some u → ∃ n r, e.task = .ticketRequest n ∧
    w.ticketRequests n = some r ∧ r.token = t ∧ decodeUserId r.claims = .ok u
  single : Each (fun e before => ∀ t u, e.issued? t = some u →
    ∀ e' ∈ before, e'.issued? t = none) w.log

theorem Mint.init : Mint .empty where
  known := by simp [World.empty]
  distinct := by simp [World.empty]
  issuing := by simp [World.empty]
  source := by simp [World.empty]
  single := by simp [World.empty]

/-- The event a step adds, if it is an issue. -/
theorem Stepped.issued_cases (h : Stepped env w a w') {e : Event} (hlog : w'.log = e :: w.log)
    (he : e.issued? t = some u) : ∃ n r o, w.ticketRequests n = some r ∧ r.pc = .issue u t ∧
      a = .task (.ticketRequest n) o ∧ e.task = .ticketRequest n := by
  cases h.ticketStep (t := t) with
  | kept hforeign _ _ =>
    have hnone := (hforeign e hlog).1
    simp [hnone] at he
  | issued hr hpc ha hlog' _ htask hiss _ _ _ =>
    obtain ⟨rfl, -⟩ := by simpa using hlog.symm.trans hlog'
    obtain rfl := Option.some.inj (he.symm.trans hiss)
    exact ⟨_, _, _, hr, hpc, ha, htask⟩
  | redeemed _ _ _ hlog' _ _ hiss _ _ _ =>
    obtain ⟨rfl, -⟩ := by simpa using hlog.symm.trans hlog'
    simp [hiss] at he

theorem start_issue {claims : Option (Option String)} {token : String}
    (h : IssuePc.start claims token = .issue u t) :
    t = token ∧ decodeUserId claims = .ok u := by
  unfold IssuePc.start at h
  split at h
  · rename_i hd
    obtain ⟨rfl, rfl⟩ := by simpa using h
    exact ⟨rfl, hd⟩
  · simp at h

theorem Mint.step (h : Mint w) (hstep : Stepped env w a w') (hfresh : freshToken w a = true) :
    Mint w' where
  known n r' hr' := by
    rcases hstep.ticket_origin hr' with ⟨r, hr, htok, -, -⟩ | ⟨i, -, -, -, -, htok⟩
    · exact hstep.mem_tokens (htok ▸ h.known n r hr)
    · simp [htok]
  distinct n r₁' n' r₂' hr₁' hr₂' htok := by
    rcases hstep.ticket_origin hr₁' with ⟨r₁, hr₁, ht₁, -, -⟩ | ⟨i₁, ha₁, -⟩
    · rcases hstep.ticket_origin hr₂' with ⟨r₂, hr₂, ht₂, -, -⟩ | ⟨i₂, ha₂, -⟩
      · exact h.distinct n r₁ n' r₂ hr₁ hr₂ (by rw [ht₁, ht₂, htok])
      · have hknown := h.known n r₁ hr₁
        simp [freshToken, ha₂, ← htok, ← ht₁, hknown] at hfresh
    · rcases hstep.ticket_origin hr₂' with ⟨r₂, hr₂, ht₂, -, -⟩ | ⟨i₂, ha₂, -⟩
      · have hknown := h.known n' r₂ hr₂
        simp [freshToken, ha₁, htok, ← ht₂, hknown] at hfresh
      · have heq := ha₁.symm.trans ha₂
        simp only [Action.issue.injEq] at heq
        exact heq.1
  issuing n r' u t hr' hpc := by
    rcases hstep.ticket_origin hr' with ⟨r, hr, htok, hclaims, hback⟩ | ⟨i, ha, -, hstart, hlog, -⟩
    · obtain ⟨hpc₀, hne⟩ := hback u t hpc
      obtain ⟨ht, hd, hnone⟩ := h.issuing n r u t hr hpc₀
      refine ⟨ht.trans htok, hclaims ▸ hd, fun e he => ?_⟩
      rcases hstep.log_cases with hlog | ⟨e', hlog⟩
      · exact hnone e (hlog ▸ he)
      · rw [hlog, List.mem_cons] at he
        rcases he with rfl | he
        · by_contra hiss
          obtain ⟨v, hv⟩ := Option.ne_none_iff_exists'.mp hiss
          obtain ⟨m, r₂, o, hr₂, hpc₂, ha, -⟩ := hstep.issued_cases hlog hv
          -- the issuing request has this token, so it is this one, and has moved on
          have hm := (h.issuing m r₂ v t hr₂ hpc₂).1
          obtain rfl := h.distinct n r m r₂ hr hr₂ (by rw [← ht, hm])
          exact hne o ha
        · exact hnone e he
    · rw [hstart] at hpc
      obtain ⟨rfl, hd⟩ := start_issue hpc
      refine ⟨rfl, hd, fun e he => ?_⟩
      by_contra hiss
      obtain ⟨v, hv⟩ := Option.ne_none_iff_exists'.mp hiss
      obtain ⟨m, r₂, -, hr₂, htok, -⟩ := h.source e (hlog ▸ he) _ v hv
      have hknown := h.known m r₂ hr₂
      simp [freshToken, ha, ← htok, hknown] at hfresh
  source e he t u hiss := by
    have hold : ∀ n r, w.ticketRequests n = some r → r.token = t →
        decodeUserId r.claims = .ok u → ∃ r', w'.ticketRequests n = some r' ∧ r'.token = t ∧
          decodeUserId r'.claims = .ok u := by
      intro n r hr ht hd
      obtain ⟨r', hr', htok, hclaims⟩ := hstep.ticket_next hr
      exact ⟨r', hr', htok.trans ht, hclaims ▸ hd⟩
    rcases hstep.log_cases with hlog | ⟨e', hlog⟩
    · obtain ⟨n, r, htask, hr, ht, hd⟩ := h.source e (hlog ▸ he) t u hiss
      exact ⟨n, (hold n r hr ht hd).imp fun _ hr' => ⟨htask, hr'⟩⟩
    · rw [hlog, List.mem_cons] at he
      rcases he with rfl | he
      · obtain ⟨n, r, o, hr, hpc, -, htask⟩ := hstep.issued_cases hlog hiss
        obtain ⟨ht, hd, -⟩ := h.issuing n r u t hr hpc
        exact ⟨n, (hold n r hr ht.symm hd).imp fun _ hr' => ⟨htask, hr'⟩⟩
      · obtain ⟨n, r, htask, hr, ht, hd⟩ := h.source e he t u hiss
        exact ⟨n, (hold n r hr ht hd).imp fun _ hr' => ⟨htask, hr'⟩⟩
  single := by
    rcases hstep.log_cases with hlog | ⟨e, hlog⟩
    · exact hlog ▸ h.single
    · rw [hlog, Each.cons_iff]
      refine ⟨fun t u hiss => ?_, h.single⟩
      obtain ⟨n, r, o, hr, hpc, -, -⟩ := hstep.issued_cases hlog hiss
      exact (h.issuing n r u t hr hpc).2.2

/-! ## What Redis has of a ticket -/

/-- What a redeem at `now` returns, by the issue that stands. -/
def standing (env : Env) (held : Option (String × Nat)) (now : Nat) : Option RedisValue :=
  match held with
  | some (u, time) => if now < time + seconds env.wsTicketTtlSeconds then some (.text u) else none
  | none => none

theorem standing_mono {h : Option (String × Nat)} {now now' : Nat} (hle : now ≤ now')
    (hnone : standing env h now = none) : standing env h now' = none := by
  cases h with
  | none => rfl
  | some p =>
    simp only [standing, ite_eq_right_iff, reduceCtorEq, imp_false, not_lt] at hnone ⊢
    omega

/-- From now on Redis returns for `t` what the log says. -/
def Agrees (env : Env) (t : String) (w : World) : Prop :=
  ∀ now, w.shared.now ≤ now →
    w.shared.redis.get now (ticketKey t) = standing env (held t w.log) now

theorem Event.redeems_of_redeemed {e : Event} {reply : Option String}
    (h : e.redeemed? t = some reply) : e.redeems t = reply.isSome := by
  unfold redeems
  split
  · rename_i heq
    simp [redeemed?, heq] at h
  · simp [h]

theorem Agrees.step (h : Agrees env t w) (hstep : Stepped env w a w') : Agrees env t w' := by
  intro now hnow
  cases hstep.ticketStep (t := t) with
  | kept hforeign hcell hle =>
    have hheld : held t w'.log = held t w.log := by
      rcases hstep.log_cases with hlog | ⟨e, hlog⟩
      · rw [hlog]
      · rw [hlog]
        exact heldStep_foreign (hforeign e hlog)
    rw [Store.get_congr hcell, hheld]
    exact h now (by omega)
  | @issued n r v e o _ _ _ hlog htime _ hiss _ hcell _ =>
    have hheld : held t w'.log = some (v, w.shared.now) := by
      rw [hlog, held_cons, heldStep, hiss, htime]
    rw [Store.get_deadline hcell, hheld]
    rfl
  | redeemed _ _ _ hlog _ _ hiss hreply hcell hsame =>
    rw [Store.get_of_none hcell]
    have hheld : held t w'.log = none ∨
        held t w'.log = held t w.log ∧ w.shared.redis.get w.shared.now (ticketKey t) = none := by
      rw [hlog, held_cons, heldStep, hiss]
      rcases hreply with hreply | ⟨-, hredeems⟩
      · rw [Event.redeems_of_redeemed hreply]
        cases hget : w.shared.redis.get w.shared.now (ticketKey t) with
        | some v => exact .inl rfl
        | none => exact .inr ⟨rfl, rfl⟩
      · exact .inl (by simp [hredeems])
    rcases hheld with hheld | ⟨hheld, hnone⟩
    · rw [hheld]
      rfl
    · rw [hheld]
      rw [h _ (Nat.le_refl _)] at hnone
      exact (standing_mono (hsame ▸ hnow) hnone).symm

/-! ## Redeems -/

/-- The issue that stands, as events: nobody has issued or redeemed `t` since. -/
theorem held_eq_some {log : List Event} {time : Nat} : held t log = some (u, time) ↔
    ∃ after i older, log = after ++ i :: older ∧ i.issued? t = some u ∧ i.time = time ∧
      ∀ e ∈ after, e.redeems t = false ∧ e.issued? t = none := by
  induction log with
  | nil => simp [held]
  | cons e log ih =>
    rw [held_cons]
    constructor
    · intro h
      unfold heldStep at h
      cases hiss : e.issued? t with
      | some v =>
        obtain ⟨rfl, rfl⟩ := by simpa [hiss] using h
        exact ⟨[], e, log, rfl, hiss, rfl, by simp⟩
      | none =>
        by_cases hr : e.redeems t = true
        · simp [hiss, hr] at h
        · simp only [hiss, hr] at h
          obtain ⟨after, i, older, rfl, hi, ht, hafter⟩ := ih.mp h
          refine ⟨e :: after, i, older, rfl, hi, ht, fun e' he' => ?_⟩
          rcases List.mem_cons.mp he' with rfl | he'
          · exact ⟨by simpa using hr, hiss⟩
          · exact hafter e' he'
    · rintro ⟨after, i, older, heq, hi, ht, hafter⟩
      cases after with
      | nil =>
        obtain ⟨rfl, rfl⟩ := by simpa using heq
        rw [heldStep, hi, ← ht]
      | cons e' after =>
        obtain ⟨rfl, rfl⟩ := by simpa using heq
        obtain ⟨hr, hiss⟩ := hafter e (by simp)
        have hheld := ih.mpr ⟨after, i, older, rfl, hi, ht, fun e' he' =>
          hafter e' (List.mem_cons_of_mem _ he')⟩
        rw [heldStep, hiss, hr]
        simpa using hheld

/-- `t` was issued for `u` less than its time before `now`, and no redeem of it
succeeded since. -/
def Issued (env : Env) (t u : String) (now : Nat) (log : List Event) : Prop :=
  ∃ after i older, log = after ++ i :: older ∧ i.issued? t = some u ∧
    now < i.time + seconds env.wsTicketTtlSeconds ∧ ∀ e ∈ after, e.redeems t = false

theorem Mint.issued_iff (h : Mint w) {now : Nat} : Issued env t u now w.log ↔
    ∃ time, held t w.log = some (u, time) ∧ now < time + seconds env.wsTicketTtlSeconds := by
  constructor
  · rintro ⟨after, i, older, hlog, hi, hnow, hafter⟩
    refine ⟨i.time, held_eq_some.mpr ⟨after, i, older, hlog, hi, rfl, fun e he => ?_⟩, hnow⟩
    refine ⟨hafter e he, ?_⟩
    -- a second issue would have the first behind it
    by_contra hiss
    obtain ⟨v, hv⟩ := Option.ne_none_iff_exists'.mp hiss
    obtain ⟨rest, hrest⟩ := (hlog ▸ h.single).of_mem_append he
    have hnone := hrest t v hv i (by simp)
    simp [hi] at hnone
  · rintro ⟨time, hheld, hnow⟩
    obtain ⟨after, i, older, hlog, hi, rfl, hafter⟩ := held_eq_some.mp hheld
    exact ⟨after, i, older, hlog, hi, hnow, fun e he => (hafter e he).1⟩

/-- What a returned redeem replied, by what came before it. -/
def RepliesAsIssued (env : Env) (e : Event) (before : List Event) : Prop :=
  ∀ t reply, e.redeemed? t = some reply → ∀ u, reply = some u ↔ Issued env t u e.time before

theorem replies_step (h : Each (RepliesAsIssued env) w.log) (hm : Mint w)
    (hagree : ∀ t, Agrees env t w) (hstep : Stepped env w a w') :
    Each (RepliesAsIssued env) w'.log := by
  rcases hstep.log_cases with hlog | ⟨e, hlog⟩
  · rwa [hlog]
  · rw [hlog, Each.cons_iff]
    refine ⟨fun t reply hreply u => ?_, h⟩
    cases hstep.ticketStep (t := t) with
    | kept hforeign _ _ => simp [(hforeign e hlog).2.1] at hreply
    | issued _ _ _ hlog' _ _ _ hnone _ _ =>
      obtain ⟨rfl, -⟩ := by simpa using hlog.symm.trans hlog'
      simp [hnone] at hreply
    | redeemed _ _ _ hlog' htime _ _ hcases _ _ =>
      obtain ⟨rfl, -⟩ := by simpa using hlog.symm.trans hlog'
      rcases hcases with hget | ⟨hnone, -⟩
      · rw [hm.issued_iff, htime]
        obtain rfl := Option.some.inj (hreply.symm.trans hget)
        rw [hagree t _ (Nat.le_refl _)]
        cases hheld : held t w.log with
        | none => simp [standing]
        | some p =>
          by_cases hlt : w.shared.now < p.2 + seconds env.wsTicketTtlSeconds
          · simp [standing, hlt, RedisValue.decode, Prod.ext_iff]
          · simp [standing, hlt, Prod.ext_iff]
      · simp [hnone] at hreply

/-! ## The exchange -/

/-- The invariant. -/
structure TicketBooks (env : Env) (w : World) : Prop where
  mint : Mint w
  agrees : ∀ t, Agrees env t w
  replies : Each (RepliesAsIssued env) w.log

theorem TicketBooks.of_reach
    (h : Reach (platform env) (fun w a => freshToken w a) w) : TicketBooks env w := by
  refine h.invariant ?_ ?_
  · refine ⟨.init, fun t now _ => ?_, by simp [platform, World.empty]⟩
    exact Store.get_of_none rfl
  · intro w w' a _ hfresh ih hstep
    have hstep := World.stepped hstep
    exact ⟨ih.mint.step hstep hfresh, fun t => (ih.agrees t).step hstep,
      replies_step ih.replies ih.mint ih.agrees hstep⟩

/-- Whoever a redeem of `t` returns is the subject of the token behind `t`. -/
theorem TicketBooks.subject (h : TicketBooks env w) {e : Event} (he : e ∈ w.log)
    (hu : e.redeemed? t = some (some u)) : ∃ n r, w.ticketRequests n = some r ∧ r.token = t ∧
      decodeUserId r.claims = .ok u := by
  obtain ⟨before, hsub, hreply⟩ := h.replies.of_mem he
  obtain ⟨after, i, older, rfl, hi, -⟩ := (hreply t _ hu u).mp rfl
  obtain ⟨n, r, -, hr, htok, hd⟩ := h.mint.source i (hsub (by simp)) t u hi
  exact ⟨n, r, hr, htok, hd⟩

/-- A redeem of `t` that returned a user. -/
def Event.admits (t : String) (e : Event) : Bool := (e.redeemed? t).any (·.isSome)

/-- What the exchange promises of a run and of each redeem. -/
structure TicketExchange (env : Env) (w : World) : Prop where
  /-- A redeem returns `u` just when the ticket was issued for `u` less than its
  time before and no redeem of it succeeded since. -/
  redeem : Each (RepliesAsIssued env) w.log
  /-- A ticket admits once, -/
  once : ∀ t, w.log.countP (·.admits t) ≤ 1
  /-- and as the subject of the token it was issued to. -/
  subject : ∀ e ∈ w.log, ∀ t u, e.redeemed? t = some (some u) → ∃ n r,
    w.ticketRequests n = some r ∧ r.token = t ∧ decodeUserId r.claims = .ok u
  /-- A redeem of any text leaves every other key alone; the keys of the other
  families are others. -/
  frame : ∀ (r r' : Redis) now t reply,
    (WSTicketAuth.redeemTicket t).exec r now = some (r', reply) →
    (∀ k, k ≠ ticketKey t → r' k = r k) ∧
    ∀ u i c n, r' (registryKey u) = r (registryKey u) ∧ r' (presenceKey u) = r (presenceKey u) ∧
      r' (lastSeenKey u) = r (lastSeenKey u) ∧ r' (livenessKey i) = r (livenessKey i) ∧
      r' (rateLimitKey c) = r (rateLimitKey c) ∧ r' (dedupKey n) = r (dedupKey n)

theorem Event.issued_of_redeemed {e : Event} {reply : Option String}
    (h : e.redeemed? t = some reply) : e.issued? t = none := by
  unfold redeemed? at h
  split at h
  · rename_i heq
    simp [issued?, heq, Happened.effect]
  · simp at h

/-- A redeem that succeeds has no successful redeem of the same ticket before it. -/
theorem admits_once (hm : Mint w) (hr : Each (RepliesAsIssued env) w.log) :
    Each (fun e before => e.admits t = true → ∀ e' ∈ before, e'.admits t = false) w.log := by
  refine (hr.deep.and hm.single.deep).mono ?_
  rintro e before ⟨⟨hreply, hreplies⟩, -, hsingle⟩ hadmits e' he'
  by_contra hadmits'
  have hsome : ∀ {e : Event}, e.admits t = true → ∃ u, e.redeemed? t = some (some u) := by
    intro e h
    obtain ⟨reply, hrep, hs⟩ := (Option.any_eq_true _ _).mp h
    obtain ⟨u, rfl⟩ := Option.isSome_iff_exists.mp hs
    exact ⟨u, hrep⟩
  obtain ⟨u, hu⟩ := hsome hadmits
  obtain ⟨u', hu'⟩ := hsome (by simpa using hadmits')
  obtain ⟨after, i, older, rfl, hi, -, hafter⟩ := (hreply t _ hu u).mp rfl
  rcases List.mem_append.mp he' with hlate | hearly
  · have hnone := hafter e' hlate
    simp [Event.redeems_of_redeemed hu'] at hnone
  · rcases List.mem_cons.mp hearly with rfl | holder
    · simp [Event.issued_of_redeemed hu'] at hi
    · -- the earlier success rests on an issue before the one that `e` rests on
      have hsuf : i :: older <:+ after ++ i :: older := List.suffix_append _ _
      have hold := hreplies.suffix ((List.suffix_cons i older).trans hsuf)
      obtain ⟨before', hsub, hreply'⟩ := hold.of_mem holder
      obtain ⟨after', i', older', rfl, hi', -⟩ := (hreply' t _ hu' u').mp rfl
      have hnone := hsingle i older hsuf t u hi i' (hsub (by simp))
      simp [hi'] at hnone

/-- In every run in which no ticket text is generated twice. -/
theorem ticket_exchange (h : Reach (platform env) (fun w a => freshToken w a) w) :
    TicketExchange env w := by
  have hb := TicketBooks.of_reach h
  refine ⟨hb.replies, fun t => (admits_once hb.mint hb.replies).countP_le_one, ?_, ?_⟩
  · exact fun e he t u hu => hb.subject he hu
  · intro r r' now t reply hexec
    have hother : ∀ k, k ≠ ticketKey t → r' k = r k := fun k hk => RedisCmd.exec_frame hexec hk
    refine ⟨hother, fun u i c n => ⟨?_, ?_, ?_, ?_, ?_, ?_⟩⟩
    all_goals exact hother _ (ne_of_keyInitial (by simp))

/-- The ticket of the session is tried a second time. -/
def reuseRun : List Action := soloRun ++ [.connect 1 "a" "c1" "t0", .ok (.session 1)]

theorem ticket_exchange_reuse : ∃ w e before,
    (platform plainEnv).run .empty reuseRun = some w ∧ w.log = e :: before ∧
    e.redeemed? "t0" = some none ∧ before.countP (·.admits "t0") = 1 ∧
    TicketExchange plainEnv w := by
  have hmeets : (platform plainEnv).Meets (fun w a => freshToken w a) .empty reuseRun := by decide
  have hrun : (platform plainEnv).run .empty reuseRun = some _ := rfl
  exact ⟨_, _, _, hrun, rfl, rfl, rfl, ticket_exchange (.of_run .init hmeets hrun)⟩

end RealtimeNotify.App
