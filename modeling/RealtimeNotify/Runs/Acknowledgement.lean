import RealtimeNotify.Runs.Creation

/-!
# Acknowledgements

The dedup key of an id is written only by a request that the database has
answered, and nothing deletes rows: so the key, and every response, stands for a
committed row.
-/

namespace RealtimeNotify.App

open RealtimeNotify.Lib RealtimeNotify.Python

variable {env : Env} {w w' : World} {a : Action} {n : UUID}

/-! ## Insertions in the log -/

/-- An insertion with id `n` reached the database. -/
def Event.creates (n : UUID) (e : Event) : Bool :=
  match e.what.effect with
  | some (.create body) => body.notificationId = n
  | _ => false

/-- Request `m` made the first insertion with id `n`. -/
def Persisted (log : List Event) (m : Nat) (n : UUID) : Prop :=
  ∃ e before, e :: before <:+ log ∧ e.task = .request m ∧ e.creates n = true ∧
    ∀ e' ∈ before, e'.creates n = false

theorem Persisted.cons {log : List Event} {m : Nat} {e : Event} (h : Persisted log m n) :
    Persisted (e :: log) m n := by
  obtain ⟨e', before, hsuf, h⟩ := h
  exact ⟨e', before, hsuf.trans (List.suffix_cons e log), h⟩

/-! ## What a step does -/

/-- Rows stay, and a new one has its insertion. -/
theorem Stepped.ids (h : Stepped env w a w') :
    w'.shared.db.ids = w.shared.db.ids ∨ ∃ e m k, w'.log = e :: w.log ∧ e.task = .request m ∧
      e.creates k = true ∧ w'.shared.db.ids = w.shared.db.ids ++ [k] := by
  cases h.creationCase with
  | quiet hrec _ _ => exact .inl (by rw [Database.ids_eq_records, hrec, Database.ids_eq_records])
  | published _ _ hrec _ _ _ _ =>
    exact .inl (by rw [Database.ids_eq_records, hrec, Database.ids_eq_records])
  | @inserted m r e pc row _ _ _ hid _ hrec htask heff hlog _ _ =>
    refine .inr ⟨e, m, r.body.notificationId, hlog, htask, by simp [Event.creates, heff], ?_⟩
    rw [Database.ids_eq_records, hrec, Database.ids_eq_records, List.map_append, ← hid]
    rfl
  | @delivered m r e pc row _ _ hrec _ _ _ _ =>
    left
    rw [Database.ids_eq_records, hrec, Database.ids_eq_records, List.map_map]
    refine List.map_congr_left fun p _ => ?_
    by_cases hp : p.1.notificationId = row.notificationId <;> simp [hp]

theorem Stepped.mem_ids (h : Stepped env w a w') (hn : n ∈ w.shared.db.ids) :
    n ∈ w'.shared.db.ids := by
  rcases h.ids with heq | ⟨_, _, _, _, _, _, heq⟩
  · rwa [heq]
  · rw [heq]
    exact List.mem_append_left _ hn

/-- After an insertion, successful or not, the id has its row. -/
theorem Shared.exec_create_mem {s sh : Shared} {body : NotificationCreate} {c : Choice}
    {row : Option Notification} (h : s.exec (.create body) c = some (sh, row)) :
    body.notificationId ∈ sh.db.ids := by
  obtain ⟨t, hcreate⟩ := Shared.exec_create h
  cases row with
  | none =>
    obtain ⟨hdb, hmem⟩ := NotificationRepository.create_none hcreate
    rwa [hdb]
  | some row =>
    obtain ⟨-, hrows, hid, -⟩ := NotificationRepository.create_some hcreate
    simp [Database.ids, hrows, hid]

theorem Event.creates_effect {e : Event} {op : Op} (he : e.what.effect = some op)
    (hn : e.creates n = true) : ∃ body, op = .create body ∧ body.notificationId = n := by
  rw [creates, he] at hn
  cases op <;> simp at hn
  exact ⟨_, rfl, hn⟩

theorem Stepped.creates_mem (h : Stepped env w a w') {e : Event} (hlog : w'.log = e :: w.log)
    (hn : e.creates n = true) : n ∈ w'.shared.db.ids := by
  obtain ⟨sh, log, hsh, hl, ht⟩ := h.touched
  rw [hlog] at hl
  rw [hsh]
  cases ht with
  | tick | expireDedup | crash | started _ => simp at hl
  | raised _ _ =>
    obtain ⟨rfl, -⟩ := by simpa using hl
    simp [Event.creates, Happened.effect] at hn
  | returned _ hx =>
    obtain ⟨rfl, -⟩ := by simpa using hl
    obtain ⟨body, rfl, rfl⟩ := Event.creates_effect rfl hn
    exact Shared.exec_create_mem hx
  | applied _ _ hx =>
    obtain ⟨rfl, -⟩ := by simpa using hl
    obtain ⟨body, rfl, rfl⟩ := Event.creates_effect rfl hn
    exact Shared.exec_create_mem hx

/-- The dedup key of `n` appears by the `mark_seen` of a settled request. -/
theorem Stepped.dedup (h : Stepped env w a w') (hk : w'.shared.redis (dedupKey n) ≠ none) :
    w.shared.redis (dedupKey n) ≠ none ∨
      ∃ m r, w.requests m = some r ∧ r.pc.settled = true ∧ r.body.notificationId = n := by
  have heffect : ∀ {id op c sh} {reply : op.Reply}, w.awaits env id = some op →
      w.shared.exec op c = some (sh, reply) → sh.redis (dedupKey n) ≠ none →
      w.shared.redis (dedupKey n) ≠ none ∨
        ∃ m r, w.requests m = some r ∧ r.pc.settled = true ∧ r.body.notificationId = n := by
    intro id op c sh reply ha hx hk
    by_cases hop : ∀ cmd, op = .redis cmd → cmd.key ≠ dedupKey n
    · exact .inl (Shared.exec_redis_frame hx hop ▸ hk)
    · simp only [not_forall, not_not] at hop
      obtain ⟨cmd, rfl, hkey⟩ := hop
      obtain ⟨r, hcmd, rfl⟩ := Shared.exec_redis hx
      cases World.dedupCaller ha hkey with
      | hasSeen hr hpc hn =>
        obtain ⟨rfl, -⟩ := by simpa [RedisCmd.exec, IdempotencyGuard.hasSeen] using hcmd
        exact .inl hk
      | markSeen hr hpc hn => exact .inr ⟨_, _, hr, by rw [hpc]; rfl, hn⟩
  obtain ⟨sh, log, hsh, -, ht⟩ := h.touched
  rw [hsh] at hk
  cases ht with
  | tick | crash | started _ | raised _ _ => exact .inl hk
  | @expireDedup k =>
    by_cases hnk : n = k
    · simp [hnk] at hk
    · have hne : dedupKey n ≠ dedupKey k := by simpa using hnk
      refine .inl fun hnone => hk ?_
      rw [Shared.evict_redis, Store.erase_ne hne, hnone]
  | returned ha hx => exact heffect ha hx hk
  | applied ha _ hx => exact heffect ha hx hk

/-! ## The invariant -/

structure Answered (w : World) : Prop where
  dedup : ∀ n, w.shared.redis (dedupKey n) ≠ none → n ∈ w.shared.db.ids
  settled : ∀ m r, w.requests m = some r → r.pc.settled = true →
    r.body.notificationId ∈ w.shared.db.ids
  response : ∀ m r response, w.requests m = some r → r.pc = .returned response →
    response.notificationId = r.body.notificationId
  created : ∀ n, ∀ e ∈ w.log, e.creates n = true → n ∈ w.shared.db.ids
  persisted : ∀ n ∈ w.shared.db.ids, ∃ m, Persisted w.log m n

theorem Answered.init : Answered .empty where
  dedup := by simp [World.empty]
  settled := by simp [World.empty]
  response := by simp [World.empty]
  created := by simp [World.empty]
  persisted := by simp [World.empty, Database.ids]

/-- `has_seen` answers from the dedup key. -/
theorem hasSeen_reply {s sh : Shared} {c : Choice} {reply : Option RedisValue}
    (hx : s.exec (.redis (IdempotencyGuard.hasSeen n)) c = some (sh, reply))
    (hreply : reply.isSome = true) : s.redis (dedupKey n) ≠ none := by
  obtain ⟨r, hcmd, rfl⟩ := Shared.exec_redis hx
  obtain ⟨-, rfl⟩ := by simpa [RedisCmd.exec, IdempotencyGuard.hasSeen] using hcmd
  intro hnone
  simp [Store.get_of_none hnone] at hreply

theorem Answered.settled_step (h : Answered w) (hstep : Stepped env w a w') {m : Nat}
    {r' : PostRequest} (hr' : w'.requests m = some r') (hs : r'.pc.settled = true) :
    r'.body.notificationId ∈ w'.shared.db.ids := by
  cases hstep.request_cases hr' with
  | same hr _ => exact hstep.mem_ids (h.settled m r' hr hs)
  | new _ _ _ => simp [CreatePc.settled] at hs
  | @killed r hr _ => exact hstep.mem_ids (h.settled m r hr (CreatePc.settled_of_kill hs))
  | @moved r _ _ _ _ hr _ hadv hsh _ =>
    cases hadv with
    | raised hn _ | applied hn _ _ =>
      rw [CreatePc.raised_eq hn] at hs
      simp [CreatePc.settled] at hs
    | @returned _ _ _ c _ reply hn hx =>
      rcases CreatePc.settled_next hn hs with hold | hpc | ⟨hpc, hseen⟩
      · exact hstep.mem_ids (h.settled m r hr hold)
      · rw [hpc] at hn
        cases hn
        rw [hsh]
        exact Shared.exec_create_mem hx
      · rw [hpc] at hn
        cases hn
        have hsome : reply.isSome = true := by
          by_contra hnone
          simp [hnone] at hseen
        exact hstep.mem_ids (h.dedup _ (hasSeen_reply (c := c) hx hsome))

theorem Answered.step (h : Answered w) (hstep : Stepped env w a w') : Answered w' where
  dedup n hk := by
    rcases hstep.dedup hk with hold | ⟨m, r, hr, hs, rfl⟩
    · exact hstep.mem_ids (h.dedup n hold)
    · exact hstep.mem_ids (h.settled m r hr hs)
  settled _ _ := h.settled_step hstep
  response m r' response hr' hpc := by
    cases hstep.request_cases hr' with
    | same hr _ => exact h.response m r' response hr hpc
    | new _ _ _ => simp at hpc
    | @killed r hr _ =>
      refine h.response m r response hr ?_
      cases hrpc : r.pc <;> simp_all [CreatePc.kill]
    | @moved r _ _ _ _ hr _ hadv _ _ =>
      cases hadv with
      | raised hn _ | applied hn _ _ =>
        rw [CreatePc.raised_eq hn] at hpc
        simp at hpc
      | returned hn _ => exact CreatePc.returned_id hn hpc
  created n e he hn := by
    rcases hstep.log_cases with hlog | ⟨e', hlog⟩
    · exact hstep.mem_ids (h.created n e (hlog ▸ he) hn)
    · rw [hlog, List.mem_cons] at he
      rcases he with rfl | he
      · exact hstep.creates_mem hlog hn
      · exact hstep.mem_ids (h.created n e he hn)
  persisted n hn := by
    have hold : n ∈ w.shared.db.ids → ∃ m, Persisted w'.log m n := by
      intro hn
      obtain ⟨m, hm⟩ := h.persisted n hn
      rcases hstep.log_cases with hlog | ⟨e', hlog⟩
      · exact ⟨m, hlog ▸ hm⟩
      · exact ⟨m, hlog ▸ hm.cons⟩
    rcases hstep.ids with heq | ⟨e, m, k, hlog, htask, hk, heq⟩
    · exact hold (heq ▸ hn)
    · by_cases hmem : n ∈ w.shared.db.ids
      · exact hold hmem
      · obtain rfl : n = k := by simpa [heq, hmem] using hn
        -- no earlier insertion of this id took effect, or its row would be there
        refine ⟨m, e, w.log, hlog ▸ List.suffix_rfl, htask, hk, fun e' he' => ?_⟩
        by_contra hc
        exact hmem (h.created n e' he' (by simpa using hc))

theorem Answered.of_reachable (h : Reachable env w) : Answered w :=
  h.invariant .init fun _ _ ih hstep => ih.step (World.stepped hstep)

/-! ## No false acknowledgement -/

structure NoFalseAck (w : World) : Prop where
  dedup : ∀ n, w.shared.redis.get w.shared.now (dedupKey n) ≠ none →
    ∃ row ∈ w.shared.db.notifications, row.notificationId = n
  response : ∀ m r response, w.requests m = some r → r.pc = .returned response →
    response.notificationId = r.body.notificationId ∧
      ∃ row ∈ w.shared.db.notifications, row.notificationId = r.body.notificationId
  /-- An answer to a retry of `m`, whose insertion did not take place, rests on
  the insertion of another request. -/
  retry : ∀ m r m' r' response, w.requests m = some r →
    (∀ e ∈ w.log, e.task = .request m → e.creates r.body.notificationId = false) →
    w.requests m' = some r' → r'.body.notificationId = r.body.notificationId →
    r'.pc = .returned response → ∃ k, k ≠ m ∧ Persisted w.log k r.body.notificationId

theorem no_false_ack (h : Reachable env w) : NoFalseAck w := by
  have ha := Answered.of_reachable h
  refine ⟨?_, ?_, ?_⟩
  · intro n hk
    have hmem := ha.dedup n fun hnone => hk (Store.get_of_none hnone)
    simpa [Database.ids] using hmem
  · intro m r response hr hpc
    have hmem := ha.settled m r hr (by rw [hpc]; rfl)
    exact ⟨ha.response m r response hr hpc, by simpa [Database.ids] using hmem⟩
  · intro m r m' r' response hr hfail hr' hid hpc
    have hmem := ha.settled m' r' hr' (by rw [hpc]; rfl)
    obtain ⟨k, hk⟩ := ha.persisted _ (hid ▸ hmem)
    refine ⟨k, ?_, hk⟩
    rintro rfl
    obtain ⟨e, before, hsuf, htask, hcre, -⟩ := hk
    have he := hfail e (hsuf.subset (List.mem_cons_self ..)) htask
    simp [he] at hcre

theorem no_false_ack_race : ∃ w, (platform plainEnv).run .empty raceRun = some w ∧
    (w.requests 1).map (·.pc) = some (.returned ⟨someBody.notificationId, false, false⟩) ∧
    NoFalseAck w := by
  have hrun : (platform plainEnv).run .empty raceRun = some _ := rfl
  exact ⟨_, hrun, rfl, no_false_ack (.of_run hrun)⟩

end RealtimeNotify.App
