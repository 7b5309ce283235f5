import RealtimeNotify.Runs.Delivery
import RealtimeNotify.Runs.ReadState
import RealtimeNotify.Runs.UserTasks

/-!
# Users do not affect each other

Two runs, which take the same steps but for those on behalf of other users: such
a step may be in one run and not in the other, anywhere. Each of them leaves the
part of `A` as it is, and a step that both take keeps the parts equal. The one
place where another user's presence can be felt is the shutdown: the loop that clears
the entries of its users has no `try`, as that of `close_all` has, and an exception
for one user leaves the entries of those after.
-/

namespace RealtimeNotify.App

open RealtimeNotify.Lib RealtimeNotify.Python

variable {A : UUID} {others : String → Bool} {env : Env} {w v w' v' : World} {a : Action}

/-! ## Whose step it is -/

/-- The user that the subscriber is about to remove. -/
def World.dropping (w : World) (i : String) : Option String :=
  (w.processes i).bind fun p => p.subscriber.drops?

section

variable (A : UUID) (others : String → Bool)

/-- Texts are generated once: a ticket's, and a connection id, so that `others`
has those of the sessions whose ticket is another user's, and no host's name. -/
def attributed (w : World) (a : Action) : Bool :=
  freshToken w a && match a with
  | .post _ _ client _ => !others (client.getD "unknown")
  | .task (.session n) _ => (w.sessions n).all fun s => match s.pc with
      | .redeem t => (w.shared.redis.get w.shared.now (ticketKey t)).all fun value =>
          others s.connectionId == foreign A value.decode
      | _ => true
  | _ => true

/-- The task is at a point where it acts for another user. -/
def taskForOthers (w : World) : TaskId → Bool
  | .session n => (w.sessions n).any fun s => others s.connectionId
  | .request n => (w.requests n).any fun r => r.body.userId ≠ A && r.pc.late
  | .ticketRequest n => (w.ticketRequests n).any fun r => foreignClaims A r.claims
  | .subscriber i => (w.dropping i).all fun u => !own A u
  | .lifespan i => (w.processes i).any fun p => p.lifespan.forOthers A
  | .liveness _ => false

def forOthers (w : World) : Action → Bool
  | .connect _ _ c _ => others c
  | .issue _ _ claims _ => foreignClaims A claims
  | .task id _ => taskForOthers A others w id
  | _ => false

/-- A shutdown ends early, at an entry that it has to clear. -/
def cutsShutdown (w : World) : Action → Bool
  | .task (.lifespan i) .fail | .task (.lifespan i) (.failApplied _) =>
      (w.processes i).any (·.lifespan.clears)
  | _ => false

/-- A step for others, which one run may take and the other not. -/
def aside (w : World) (a : Action) : Bool :=
  attributed A others w a && forOthers A others w a && !cutsShutdown w a

/-- A step of both runs. They remove the same user, if any. -/
def joint (w v : World) (a : Action) : Bool :=
  attributed A others w a && attributed A others v a && !forOthers A others w a &&
    !forOthers A others v a && match a with
    | .task (.subscriber i) _ => decide (w.dropping i = v.dropping i)
    | _ => true

end

/-! ## Whom a session acts for -/

/-- `others` tells the sessions of other users from those of `A`. -/
structure Attributed (A : UUID) (others : String → Bool) (w : World) : Prop where
  user : ∀ n s u, w.sessions n = some s → s.pc.user? = some u →
    others s.connectionId = foreign A u
  id : ∀ n s id, w.sessions n = some s → s.pc.id? = some id →
    ∃ u, s.pc.user? = some u ∧ UUID.ofString u = some id
  client : ∀ n r, w.requests n = some r → others (r.client.getD "unknown") = false

theorem attributed_redeem {n : Nat} {s : Session} {o : Outcome Choice} {t : String}
    {value : RedisValue} (hg : attributed A others w (.task (.session n) o) = true)
    (hs : w.sessions n = some s) (hpc : s.pc = .redeem t)
    (hget : w.shared.redis.get w.shared.now (ticketKey t) = some value) :
    others s.connectionId = foreign A value.decode := by
  simpa [attributed, freshToken, hs, hpc, hget] using hg

theorem GatewayPc.id_user {pc : GatewayPc} {id : UUID} (h : pc.id? = some id) :
    ∃ u, pc.user? = some u := by
  cases pc <;> simp_all [id?, user?]

/-- The UUID is that of the text. -/
theorem GatewayPc.id_resume {n : Nat} {i c u : String} {pc r : GatewayPc} {op : Op}
    {k : op.Reply → GatewayPc} (h : pc.next env n i c = .call op k r) {reply : op.Reply} {id : UUID}
    (hid : (k reply).id? = some id) (hu : (k reply).user? = some u) :
    UUID.ofString u = some id := by
  cases pc with
  | redeem t =>
    cases h
    cases reply <;> simp [id?] at hid
  | onlineSeen v =>
    cases h
    cases hv : UUID.ofString v with
    | none => simp [hv, id?] at hid
    | some id' =>
      simp only [hv, id?, user?, Option.some.injEq] at hid hu
      rw [← hu, hv, hid]
  | receive v =>
    cases h
    cases reply <;> simp [id?] at hid
  | allow v fields =>
    cases h
    cases reply with
    | false => simp [id?] at hid
    | true =>
      obtain rfl : v = u := Option.some.inj (user_routed.symm.trans hu)
      simp only [if_true, routed] at hid
      split at hid
      · simp [id?] at hid
      · simp [id?] at hid
      · split at hid
        · rename_i hv
          rw [hv]
          exact hid
        · simp [id?] at hid
      · simp [id?] at hid
  | ended => cases h
  | _ =>
    cases h
    simp [id?] at hid

theorem GatewayPc.id_raised {n : Nat} {i c : String} {pc r : GatewayPc} {op : Op}
    {k : op.Reply → GatewayPc} (h : pc.next env n i c = .call op k r) : r.id? = none := by
  cases pc <;> cases h <;> rfl

theorem Stepped.request_client (h : Stepped env w a w') {n : Nat} {r' : PostRequest}
    (hr' : w'.requests n = some r') : (∃ r, w.requests n = some r ∧ r.client = r'.client) ∨
      ∃ i body, a = .post n i r'.client body := by
  cases h with
  | tick | expireDedup | boot _ | connect _ _ | issue _ _ | session _ _ | ticketRequest _ _
  | subscriber _ _ _ | lifespan _ _ | liveness _ _ _ => exact .inl ⟨r', hr', rfl⟩
  | crash _ =>
    simp only [World.crash, World.killAll, Option.map_eq_some_iff] at hr'
    obtain ⟨r, hr, rfl⟩ := hr'
    refine .inl ⟨r, hr, ?_⟩
    split <;> rfl
  | @post m i client body _ _ =>
    by_cases hm : n = m
    · subst hm
      obtain rfl := by simpa [World.setRequest] using hr'
      exact .inr ⟨i, body, rfl⟩
    · exact .inl ⟨r', by simpa [World.setRequest, hm] using hr', rfl⟩
  | @request m r _ _ pc _ hr _ =>
    by_cases hm : n = m
    · subst hm
      obtain rfl := by simpa [World.setRequest] using hr'
      exact .inl ⟨r, hr, rfl⟩
    · exact .inl ⟨r', by simpa [World.setRequest, hm] using hr', rfl⟩

theorem Attributed.step (h : Attributed A others w) (hg : attributed A others w a = true)
    (hstep : Stepped env w a w') : Attributed A others w' where
  user n s' u hs' hu := by
    cases hstep.session_cases hs' with
    | same hs _ => exact h.user n s' u hs hu
    | new _ _ _ _ => simp [GatewayPc.user?] at hu
    | killed _ _ _ => simp [GatewayPc.user?] at hu
    | @moved s _ _ _ _ hs ha hadv _ _ =>
      cases hadv with
      | raised hn _ => exact h.user n s u hs (GatewayPc.user_raised hn hu)
      | applied hn _ _ => exact h.user n s u hs (GatewayPc.user_raised hn hu)
      | @returned _ _ _ c _ reply hn hx =>
        rcases GatewayPc.user_resume hn hu with hold | ⟨t, hpc⟩
        · exact h.user n s u hs hold
        · subst ha
          have hwhose : ∀ value, w.shared.redis.get w.shared.now (ticketKey t) = some value →
              others s.connectionId = foreign A value.decode := fun value =>
            attributed_redeem hg hs hpc
          rw [hpc] at hn
          cases hn
          have hexec : w.shared.exec (.redis (WSTicketAuth.redeemTicket t)) c
            = some (_, reply) := hx
          obtain ⟨r, hr, -⟩ := Shared.exec_redis hexec
          obtain ⟨-, rfl⟩ := by simpa [RedisCmd.exec, WSTicketAuth.redeemTicket] using hr
          cases hget : w.shared.redis.get w.shared.now (ticketKey t) with
          | none => simp [hget, GatewayPc.user?] at hu
          | some value =>
            obtain rfl := by simpa [hget, GatewayPc.user?] using hu
            exact hwhose value hget
  id n s' id hs' hid := by
    cases hstep.session_cases hs' with
    | same hs _ => exact h.id n s' id hs hid
    | new _ _ _ _ => simp [GatewayPc.id?] at hid
    | killed _ _ _ => simp [GatewayPc.id?] at hid
    | moved hs _ hadv _ _ =>
      cases hadv with
      | raised hn _ => simp [GatewayPc.id_raised hn] at hid
      | applied hn _ _ => simp [GatewayPc.id_raised hn] at hid
      | returned hn _ =>
        obtain ⟨u, hu⟩ := GatewayPc.id_user hid
        exact ⟨u, hu, GatewayPc.id_resume hn hid hu⟩
  client n r' hr' := by
    rcases hstep.request_client hr' with ⟨r, hr, hclient⟩ | ⟨i, body, rfl⟩
    · rw [← hclient]
      exact h.client n r hr
    · simpa [attributed, freshToken] using hg

/-- A ticket cannot be read before its request has stored it. -/
theorem TicketBooks.unissued (h : TicketBooks env w) {n : Nat} {r : TicketRequest} {u t : String}
    (hr : w.ticketRequests n = some r) (hpc : r.pc = .issue u t) :
    w.shared.redis.get w.shared.now (ticketKey t) = none := by
  have hnone := (h.mint.issuing n r u t hr hpc).2.2
  have hheld : held t w.log = none := by
    cases hheld : held t w.log with
    | none => rfl
    | some p =>
      obtain ⟨after, i, older, hlog, hi, -⟩ := held_eq_some.mp hheld
      simp [hnone i (by simp [hlog])] at hi
  rw [h.agrees t _ (Nat.le_refl _), hheld]
  rfl

/-- Every row with the id of a row in hand is of the same user. -/
theorem Books.user_of_row (h : Books w) {m : Nat} {r : PostRequest} {row row' : Notification}
    (hr : w.requests m = some r) (hrow : r.pc.row? = some row)
    (hrow' : row' ∈ w.shared.db.notifications) (hid : row'.notificationId = row.notificationId) :
    row'.userId = r.body.userId := by
  obtain ⟨hmem, -, huser, -⟩ := h.row m r row hr hrow
  obtain ⟨row₀, hrow₀, henv⟩ := List.mem_map.mp hmem
  have hid₀ : row₀.notificationId = row'.notificationId := by
    rw [hid]
    exact congrArg NotificationEnvelope.notificationId henv
  obtain rfl := List.inj_on_of_nodup_map h.ids hrow₀ hrow' hid₀
  exact (congrArg NotificationEnvelope.userId henv).trans huser

/-! ## A step for others -/

/-- What each of the two runs has of its own. -/
structure Grounds (A : UUID) (others : String → Bool) (env : Env) (w : World) : Prop where
  whose : Attributed A others w
  tickets : TicketBooks env w
  books : Books w

theorem Grounds.of_reach (h : Reach (platform env) (fun w a => attributed A others w a = true) w) :
    Grounds A others env w where
  whose := by
    refine h.invariant ?_ fun _ hg ih hstep => ih.step hg (World.stepped hstep)
    constructor <;> simp [platform, World.empty]
  tickets := .of_reach (h.mono fun w a hg => (Bool.and_eq_true_iff.mp hg).1)
  books := .of_reachable (h.mono fun _ _ _ => trivial)

theorem Redis.part_of_get {r : Redis} {now : Nat} {k : String}
    (h : ∀ value, r.get now k = some value → ¬ Within A others k value) :
    r.part A others now k = none :=
  part_eq_none.mpr fun c hc => h c.value (by rw [Store.get_eq_map, hc]; rfl)

/-- It leaves the part of `A` as it is. -/
theorem Grounds.part_aside (hb : Grounds A others env w) (h : Stepped env w a w')
    (ha : aside A others w a = true) : w'.part A others = w.part A others := by
  simp only [aside, Bool.and_eq_true, Bool.not_eq_true'] at ha
  obtain ⟨⟨hg, ho⟩, hcut⟩ := ha
  cases h with
  | tick | expireDedup | boot _ | crash _ | post _ _ => cases ho
  | @connect n i c ticket _ hn =>
    have hc : others c = true := ho
    exact World.part_session_unseen rfl (by simp [hn, hc])
  | @issue n i claims token _ hn =>
    have hclaims : foreignClaims A claims = true := ho
    exact World.part_ticketRequest_unseen rfl (by simp [hn, hclaims])
  | @session n s o sh pc e hs hadv =>
    have hc : others s.connectionId = true := by simpa [forOthers, taskForOthers, hs] using ho
    -- its own UUID is not `A`'s, and neither is the ticket that it may redeem
    have hshared : sh.part A others = w.shared.part A others := by
      refine hadv.leaves fun op hop c t x hx => Shared.part_apart ?_ hx
      refine GatewayPc.apart hop hc (fun u hu => ?_) (fun id hid hA => ?_) fun t hpc => ?_
      · rw [← hb.whose.user n s u hs hu, hc]
      · obtain ⟨u, hu, hparse⟩ := hb.whose.id n s id hs hid
        have hforeign := hb.whose.user n s u hs hu
        simp [hc, foreign_of_ofString hparse, hA] at hforeign
      · refine Redis.part_of_get fun value hget hwithin => ?_
        have hforeign := attributed_redeem hg hs hpc hget
        simp [hc, hwithin.2 t rfl] at hforeign
    exact World.part_session_unseen hshared (by simp [hs, Option.filter, hc])
  | @request n r o sh pc e hr hadv =>
    obtain ⟨hu, hlate⟩ : r.body.userId ≠ A ∧ r.pc.late = true := by
      simpa [forOthers, taskForOthers, hr] using ho
    -- `mark_delivered_live` goes by the id, and the row with this id is the other user's
    have hshared : sh.part A others = w.shared.part A others := by
      refine hadv.leaves fun op hop c t x hx => Shared.part_apart ?_ hx
      refine CreatePc.apart hop hlate fun row hrow row' hrow' hid hA => hu ?_
      rw [← hb.books.user_of_row hr hrow hrow' hid, hA]
    refine World.part_request_unseen hshared ?_
    simp only [hr, Option.map_some, PostRequest.part, hu, if_false]
    cases hadv with
    | returned hn _ =>
      obtain ⟨hpc, hk, -⟩ := CreatePc.untilSeen_late hn hlate
      rw [hpc, hk]
    | raised hn _ | applied hn _ _ =>
      obtain ⟨hpc, -, hr⟩ := CreatePc.untilSeen_late hn hlate
      rw [hpc, hr]
  | @ticketRequest n r o sh pc e hr hadv =>
    have hclaims : foreignClaims A r.claims = true := by
      simpa [forOthers, taskForOthers, hr] using ho
    have hshared : sh.part A others = w.shared.part A others := by
      refine hadv.leaves fun op hop c t x hx => Shared.part_apart ?_ hx
      cases hpc : r.pc with
      | issue u token =>
        rw [hpc] at hop
        obtain rfl := Option.some.inj hop
        -- under a new token there is no ticket of `A` to overwrite
        have hu : foreign A u = true := by
          rw [← foreignClaims_of_ok (hb.tickets.mint.issuing n r u token hr hpc).2.1, hclaims]
        refine ⟨Redis.part_of_get fun value hget => ?_, fun hwithin => ?_⟩
        · simp [hb.tickets.unissued hr hpc] at hget
        · have hown : foreign A u = false := hwithin.2 token rfl
          simp [hu] at hown
      | returned _ | rejected _ | raised | killed =>
        rw [hpc] at hop
        cases hop
    exact World.part_ticketRequest_unseen hshared (by simp [hr, Option.filter, hclaims])
  | @subscriber i p o sh pc e hp hl hadv =>
    have hshared : sh.part A others = w.shared.part A others := by
      refine hadv.leaves fun op hop c t x hx => Shared.part_apart ?_ hx
      refine SubscriberPc.apart hop fun u hu => ?_
      simpa [forOthers, taskForOthers, World.dropping, hp, hu] using ho
    exact World.part_process_unseen hshared (by simp [hp, Process.part])
  | @lifespan i p o sh pc e hp hadv =>
    have hlife : p.lifespan.forOthers A = true := by
      simpa [forOthers, taskForOthers, hp] using ho
    have hshared : sh.part A others = w.shared.part A others :=
      hadv.leaves fun op hop c t x hx => Shared.part_apart (LifespanPc.apart hop hlife) hx
    -- the loop may move on among the other entries, but not leave at one of them
    have hpc : pc.part A = p.lifespan.part A := by
      cases hadv with
      | returned hn _ => exact LifespanPc.part_next hn hlife _
      | raised hn hf | applied hn hf _ =>
        exact LifespanPc.part_raised hn hlife hf (by simpa [cutsShutdown, hp] using hcut)
    exact World.part_process_unseen hshared (by simp [hp, Process.part, hpc])
  | liveness _ _ _ => cases ho

/-! ## A step of both -/

theorem PostRequest.part_eq_self {r : PostRequest} {op : Op}
    (hop : (r.pc.next env r.client r.body).op? = some op)
    (hr : r.body.userId = A ∨ r.pc.late = false) : r.part A = r := by
  by_cases hu : r.body.userId = A
  · exact if_pos hu
  · rw [PostRequest.part, if_neg hu]
    cases hn : r.pc.next env r.client r.body with
    | done => simp [hn, Next.op?] at hop
    | call op k r' => rw [CreatePc.untilSeen_of_not_late hn (hr.resolve_left hu)]

/-- What a session of `A` reads in a ticket is its own. -/
theorem within_of_ticket {n : Nat} {s : Session} {o : Outcome Choice} {t : String}
    (hg : attributed A others w (.task (.session n) o) = true) (hs : w.sessions n = some s)
    (hc : others s.connectionId = false) (hpc : s.pc = .redeem t) {cell : Cell RedisValue}
    (hcell : w.shared.redis.cell w.shared.now (ticketKey t) = some cell) :
    Within A others (ticketKey t) cell.value := by
  refine ⟨not_foreignKey (by simp), fun t' ht => ?_⟩
  rw [← attributed_redeem hg hs hpc (by rw [Store.get_eq_map, hcell]; rfl), hc]

/-- One step of one task on two states with the same part of `A`. -/
theorem Advances.part_agree {Pc : Type} {next : Step Pc} {s s' t t' : Shared} {op : Op}
    {o : Outcome Choice} {pc pc' : Pc} {e e' : Happened Op Op.Reply}
    (hpart : s.part A others = t.part A others) (hop : next.op? = some op)
    (hs : op.Within A others s ∧ ∀ x y, op.Same A x y → x = y) (ht : op.Within A others t)
    (h : Advances semantics s next o s' pc e) (h' : Advances semantics t next o t' pc' e') :
    s'.part A others = t'.part A others ∧ pc = pc' := by
  refine h.agrees (f := id) (.refl hop hs.2) hpart h' fun op' hop' c u v x y hx hy => ?_
  obtain rfl := Option.some.inj (hop.symm.trans hop')
  exact Shared.part_agree hpart hs.1 ht hx hy

/-- It keeps the parts equal. -/
theorem Grounds.part_joint (hw : Grounds A others env w) (hj : joint A others w v a = true)
    (hpart : w.part A others = v.part A others) (h : Stepped env w a w')
    (h' : Stepped env v a v') : w'.part A others = v'.part A others := by
  simp only [joint, Bool.and_eq_true, Bool.not_eq_true'] at hj
  obtain ⟨⟨⟨⟨hgw, hgv⟩, how⟩, hov⟩, hdrop⟩ := hj
  have hshared : w.shared.part A others = v.shared.part A others :=
    congrArg WorldPart.shared hpart
  cases h with
  | tick =>
    cases h' with
    | tick => rw [World.part_shared w, World.part_shared v, hpart, Shared.part_elapse hshared]
  | expireDedup =>
    cases h' with
    | expireDedup => rw [World.part_shared w, World.part_shared v, hpart, Shared.part_evict hshared]
  | boot _ =>
    cases h' with
    | boot _ => rw [World.part_setProcess, World.part_setProcess, hpart]
  | crash _ =>
    cases h' with
    | crash _ => exact World.part_crash hpart
  | connect _ _ =>
    cases h' with
    | connect _ _ => rw [World.part_setSession, World.part_setSession, hpart]
  | post _ _ =>
    cases h' with
    | post _ _ => rw [World.part_setRequest, World.part_setRequest, hpart]
  | issue _ _ =>
    cases h' with
    | issue _ _ => rw [World.part_addTicketRequest, World.part_addTicketRequest, hpart]
  | @session n s o sh pc e hs hadv =>
    cases h' with
    | @session _ s' _ sh' pc' e' hs' hadv' =>
      have hc : others s.connectionId = false := by simpa [forOthers, taskForOthers, hs] using how
      have hc' : others s'.connectionId = false := by
        simpa [forOthers, taskForOthers, hs'] using hov
      obtain rfl : s = s' := by
        have hsame := congrFun (congrArg WorldPart.sessions hpart) n
        simpa [World.part, hs, hs', Option.filter, hc, hc'] using hsame
      obtain ⟨op, hop⟩ := hadv.op_eq
      have hid : ∀ id, s.pc.id? = some id → id = A := by
        intro id hid
        obtain ⟨u, hu, hparse⟩ := hw.whose.id n s id hs hid
        exact ofString_of_not_foreign ((hw.whose.user n s u hs hu).symm.trans hc) hparse
      have hwithin := GatewayPc.within hop hc hid fun t hpc cell => within_of_ticket hgw hs hc hpc
      have hwithin' := GatewayPc.within hop hc hid fun t hpc cell => within_of_ticket hgv hs' hc hpc
      obtain ⟨hsh, rfl⟩ := Advances.part_agree hshared hop hwithin hwithin'.1 hadv hadv'
      rw [World.part_session, World.part_session, hpart, hsh]
  | @request n r o sh pc e hr hadv =>
    cases h' with
    | @request _ r' _ sh' pc' e' hr' hadv' =>
      have hnow : r.body.userId = A ∨ r.pc.late = false := by
        simpa [forOthers, taskForOthers, hr, or_iff_not_imp_left] using how
      have hnow' : r'.body.userId = A ∨ r'.pc.late = false := by
        simpa [forOthers, taskForOthers, hr', or_iff_not_imp_left] using hov
      obtain ⟨op, hop⟩ := hadv.op_eq
      obtain ⟨op', hop'⟩ := hadv'.op_eq
      -- until its `mark_seen` the part keeps the whole request
      obtain rfl : r = r' := by
        have hsame := congrFun (congrArg WorldPart.requests hpart) n
        simpa [World.part, hr, hr', PostRequest.part_eq_self hop hnow,
          PostRequest.part_eq_self hop' hnow'] using hsame
      have hclient := hw.whose.client n r hr
      obtain ⟨hsh, rfl⟩ := Advances.part_agree hshared hop (CreatePc.within hop hnow hclient)
        (CreatePc.within hop hnow hclient).1 hadv hadv'
      rw [World.part_request, World.part_request, hpart, hsh]
  | @ticketRequest n r o sh pc e hr hadv =>
    cases h' with
    | @ticketRequest _ r' _ sh' pc' e' hr' hadv' =>
      have hown : foreignClaims A r.claims = false := by
        simpa [forOthers, taskForOthers, hr] using how
      have hown' : foreignClaims A r'.claims = false := by
        simpa [forOthers, taskForOthers, hr'] using hov
      obtain rfl : r = r' := by
        have hsame := congrFun (congrArg WorldPart.ticketRequests hpart) n
        simpa [World.part, hr, hr', Option.filter, hown, hown'] using hsame
      obtain ⟨op, hop⟩ := hadv.op_eq
      obtain ⟨hsh, rfl⟩ := Advances.part_agree hshared hop (IssuePc.within hop)
        (IssuePc.within hop).1 hadv hadv'
      rw [World.part_ticketRequest, World.part_ticketRequest, hpart, hsh]
  | @subscriber i p o sh pc e hp hl hadv =>
    cases h' with
    | @subscriber _ p' _ sh' pc' e' hp' hl' hadv' =>
      have hsame : p.subscriber.drops? = p'.subscriber.drops? := by
        simpa [World.dropping, hp, hp'] using hdrop
      obtain ⟨u, hu⟩ : ∃ u, p.subscriber.drops? = some u := by
        cases hu : p.subscriber.drops? with
        | none => simp [forOthers, taskForOthers, World.dropping, hp, hu] at how
        | some u => exact ⟨u, rfl⟩
      obtain ⟨ws, hpc⟩ := SubscriberPc.drops_eq_some hu
      obtain ⟨ws', hpc'⟩ := SubscriberPc.drops_eq_some (hsame ▸ hu)
      -- they may be at different sockets, which `remove` does not look at
      rw [hpc] at hadv
      rw [hpc'] at hadv'
      obtain ⟨hsh, -⟩ := hadv.agrees (f := fun _ => ()) (.call (fun _ _ _ => rfl) rfl) hshared hadv'
        fun op hop c s t x y hx hy => by
          obtain rfl := Option.some.inj hop
          exact Shared.part_agree (c := c) hshared trivial trivial hx hy
      have hproc : ({ p with subscriber := pc } : Process).part A
          = ({ p' with subscriber := pc' } : Process).part A :=
        (World.processes_of_part hpart hp hp' : p.part A = p'.part A)
      rw [World.part_process, World.part_process, hpart, hsh, hproc]
  | @lifespan i p o sh pc e hp hadv =>
    cases h' with
    | @lifespan _ p' _ sh' pc' e' hp' hadv' =>
      have hlife : p.lifespan.forOthers A = false := by
        simpa [forOthers, taskForOthers, hp] using how
      have hlife' : p'.lifespan.forOthers A = false := by
        simpa [forOthers, taskForOthers, hp'] using hov
      obtain ⟨hl, hb⟩ := Prod.mk.inj (World.processes_of_part hpart hp hp')
      obtain ⟨op, hop⟩ := hadv.op_eq
      obtain ⟨op', hop'⟩ := hadv'.op_eq
      -- the same entries of `A` are left to clear, among others that differ
      have halike := (LifespanPc.alike_part hop hlife).euclidean (fun _ => Op.same_refl _)
        (hl ▸ LifespanPc.alike_part hop' hlife')
      obtain ⟨hsh, hpc⟩ := hadv.agrees halike hshared hadv'
        fun op' hop' c u v x y hx hy =>
          Shared.part_agree hshared (LifespanPc.within hop' hlife) (LifespanPc.within hop' hlife)
            hx hy
      rw [World.part_process, World.part_process, hpart, hsh, Process.part, Process.part, hpc, hb]
  | @liveness i p o sh pc e hp hl hadv =>
    cases h' with
    | @liveness _ p' _ sh' pc' e' hp' hl' hadv' =>
      obtain ⟨hl, hb⟩ := Prod.mk.inj (World.processes_of_part hpart hp hp')
      rw [← hb] at hadv'
      obtain ⟨op, hop⟩ := hadv.op_eq
      obtain ⟨hsh, rfl⟩ := Advances.part_agree hshared hop (LivenessPc.within hop)
        (LivenessPc.within hop).1 hadv hadv'
      rw [World.part_process, World.part_process, hpart, hsh, Process.part, Process.part, hl]

/-! ## What is `A`'s -/

/-- What the tables and Redis have of `A` is the same in both. -/
structure Isolated (A : UUID) (w v : World) : Prop where
  entry : ∀ u, UUID.ofString u = some A →
    w.shared.redis.lookup w.shared.now u = v.shared.redis.lookup v.shared.now u
  status : ∀ u, UUID.ofString u = some A →
    w.shared.redis.getStatus w.shared.now u = v.shared.redis.getStatus v.shared.now u
  lastSeen : ∀ u, UUID.ofString u = some A →
    w.shared.redis.getLastSeen w.shared.now u = v.shared.redis.getLastSeen v.shared.now u
  rows : w.shared.db.notifications.filter (·.userId = A)
    = v.shared.db.notifications.filter (·.userId = A)
  receipts : ∀ row ∈ w.shared.db.notifications, row.userId = A →
    NotificationRepository.receiptsOf w.shared.db row.notificationId
      = NotificationRepository.receiptsOf v.shared.db row.notificationId
  backlog : ∀ limit tie, NotificationRepository.getUnreadBacklog w.shared.db A limit tie
    = NotificationRepository.getUnreadBacklog v.shared.db A limit tie
  history : ∀ limit before tie, NotificationRepository.getHistory w.shared.db A limit before tie
    = NotificationRepository.getHistory v.shared.db A limit before tie

/-- The receipts of a row of `A` are receipts of `A`. -/
theorem ReadState.receiptsOf_eq_part {db : Database} (h : ReadState db) {row : Notification}
    (hrow : row ∈ db.notifications) (hu : row.userId = A) :
    NotificationRepository.receiptsOf db row.notificationId
      = (db.part A).receipts.filter (·.notificationId = row.notificationId) := by
  rw [NotificationRepository.receiptsOf, Database.part, List.filter_filter]
  refine List.filter_congr fun r hr => ?_
  by_cases hid : r.notificationId = row.notificationId
  · obtain ⟨row', hrow', hrid, hruser⟩ := h.owner r hr
    obtain rfl := h.row_inj hrow hrow' (hid.symm.trans hrid.symm)
    simp [hid, ← hruser, hu]
  · simp [hid]

/-- Two runs of the same steps but for those for other users, which are in the one
or in the other, while no shutdown ends at an entry of another user: what is `A`'s
is the same in both. -/
theorem users_isolated {p : World × World} (h : Reach (platform env).twins
    (fun p a => paired (aside A others) (joint A others) p a = true) p) :
    Isolated A p.1 p.2 := by
  obtain ⟨hw, hv, hpart⟩ : Reach (platform env) (fun w a => attributed A others w a = true) p.1 ∧
      Reach (platform env) (fun w a => attributed A others w a = true) p.2 ∧
      p.1.part A others = p.2.part A others := by
    refine h.unwinding (R := fun w v => w.part A others = v.part A others)
      ⟨fun _ => rfl, Eq.symm, Eq.trans⟩ ?_ ?_ ?_ ?_
    · intro w a ha
      simp only [aside, Bool.and_eq_true] at ha
      exact ha.1.1
    · intro w v a hj
      simp only [joint, Bool.and_eq_true] at hj
      exact ⟨hj.1.1.1.1, hj.1.1.1.2⟩
    · intro w w' a hreach ha hstep
      exact ((Grounds.of_reach hreach).part_aside (World.stepped hstep) ha).symm
    · intro w v w' v' a hreach _ hj hpart hstep hstep'
      exact (Grounds.of_reach hreach).part_joint hj hpart (World.stepped hstep)
        (World.stepped hstep')
  have hshared : p.1.shared.part A others = p.2.shared.part A others :=
    congrArg WorldPart.shared hpart
  have hdb : p.1.shared.db.part A = p.2.shared.db.part A := congrArg Part.db hshared
  have hrows : p.1.shared.db.notifications.filter (·.userId = A)
      = p.2.shared.db.notifications.filter (·.userId = A) := congrArg Database.Part.rows hdb
  have hread : ReadState p.1.shared.db := Reachable.readState (hw.mono fun _ _ _ => trivial)
  have hread' : ReadState p.2.shared.db := Reachable.readState (hv.mono fun _ _ _ => trivial)
  refine ⟨fun u hu => (Shared.reads_of_part hshared hu).1,
    fun u hu => (Shared.reads_of_part hshared hu).2.1,
    fun u hu => (Shared.reads_of_part hshared hu).2.2, hrows, fun row hrow hu => ?_,
    fun _ _ => NotificationRepository.part_getUnreadBacklog hdb,
    fun _ _ _ => NotificationRepository.part_getHistory hdb⟩
  have hrow' : row ∈ p.2.shared.db.notifications := by
    have hmem : row ∈ p.1.shared.db.notifications.filter (·.userId = A) :=
      List.mem_filter.mpr ⟨hrow, decide_eq_true hu⟩
    rw [hrows] at hmem
    exact (List.mem_filter.mp hmem).1
  rw [hread.receiptsOf_eq_part hrow hu, hread'.receiptsOf_eq_part hrow' hu, hdb]

def otherUser : String := "87654321-4321-8765-4321-876543218765"

/-- Everything another user does, a receipt for a notification that is not theirs
included, in one run only. -/
def intruderRun : List (Joint Action) :=
  soloRun.map .both ++
    (Action.grant 1 "a" otherUser "t1" ++ Action.openSession 1 "a" "c1" "t1").map .left ++
    (Action.submit 0 "a" someBody ++ [Action.insert 0 newYear] ++
      List.replicate 5 (Action.ok (.request 0))).map .both ++
    (Action.say 1 readReceiptMessage 1 ++ Action.teardown 1).map .left

set_option maxRecDepth 8000 in
theorem users_isolated_intruder : ∃ p,
    (platform receiptEnv).twins.run (.empty, .empty) intruderRun = some p ∧
    (∃ e ∈ p.1.log, e.task = .session 1 ∧
      ∃ id, e.what.effect = some (.markRead someBody.notificationId id)) ∧
    p.1.shared.db.notifications.map (fun row => (row.deliveredLive, row.readAt)) = [(true, none)] ∧
    Isolated someBody.userId p.1 p.2 := by
  have hmeets : (platform receiptEnv).twins.Meets (fun p a => paired
      (aside someBody.userId (· == "c1")) (joint someBody.userId (· == "c1")) p a = true)
      (.empty, .empty) intruderRun := by decide
  obtain ⟨p, hrun, hreceipt, hrow⟩ : ∃ p,
      (platform receiptEnv).twins.run (.empty, .empty) intruderRun = some p ∧
      (∃ e ∈ p.1.log, e.task = .session 1 ∧
        ∃ id, e.what.effect = some (.markRead someBody.notificationId id)) ∧
      p.1.shared.db.notifications.map (fun row => (row.deliveredLive, row.readAt))
        = [(true, none)] :=
    ⟨_, rfl, ⟨_, List.mem_of_getElem? (i := 4) rfl, rfl, _, rfl⟩, rfl⟩
  exact ⟨p, hrun, hreceipt, hrow, users_isolated (.of_run .init hmeets hrun)⟩

/-! ## The shutdown -/

/-- The ticket exchange and the session with the number `n`. -/
def Action.ofSession (n : Nat) : Action → Bool
  | .connect m _ _ _ | .issue m _ _ _ | .task (.session m) _ | .task (.ticketRequest m) _ => m = n
  | _ => false

/-- A shutdown whose eighth await raises. -/
def troubledShutdown : List Action :=
  List.replicate 7 (.ok (.lifespan "a")) ++ [.fail (.lifespan "a")]

def quietRun : List Action := soloRun ++ troubledShutdown

/-- The same with a session of another user before. -/
def crowdedRun : List Action :=
  Action.startup "a" ++ Action.grant 1 "a" otherUser "t1" ++ Action.openSession 1 "a" "c1" "t1" ++
    Action.grant 0 "a" someUser "t0" ++ Action.openSession 0 "a" "c0" "t0" ++ troubledShutdown

/-- With the other user's steps the exception is raised before the entry of
`someUser` is deleted, without them after that. -/
theorem shutdown_not_isolated :
    quietRun = crowdedRun.filter (fun a => !a.ofSession 1) ∧
    UUID.ofString otherUser ≠ UUID.ofString someUser ∧
    ∃ w v, (platform plainEnv).run .empty quietRun = some w ∧
      (platform plainEnv).run .empty crowdedRun = some v ∧
      w.shared.redis.lookup w.shared.now someUser = none ∧
      v.shared.redis.lookup v.shared.now someUser = some "a" :=
  ⟨rfl, by decide, _, _, rfl, rfl, rfl, rfl⟩

end RealtimeNotify.App
