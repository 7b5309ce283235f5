import RealtimeNotify.App.Steps

/-!
# Who may change what

For each part of the shared state, the operations that leave it alone; for each
family of keys, the tasks that send commands on it. A property about one entry
then looks at its callers only.
-/

namespace RealtimeNotify.App

open RealtimeNotify.Lib RealtimeNotify.Python

variable {env : Env} {w : World} {s sh : Shared} {op : Op} {c : Choice} {reply : op.Reply}

/-! ## Frames of the shared state -/

/-- An operation that leaves the shared state as it is. -/
def Op.quiet : Op → Bool
  | .getUnreadBacklog .. | .receive _ | .getSocket .. | .connectedUserIds _ | .accept _ | .close ..
  | .send .. | .sleep => true
  | _ => false

/-- All that an operation can do. -/
inductive ExecCase (s : Shared) : (op : Op) → op.Reply → Shared → Prop where
  | redis {cmd r} {reply : cmd.Reply} : cmd.exec s.redis s.now = some (r, reply) →
      ExecCase s (.redis cmd) reply { s with redis := r }
  | publish {i u notification} : ExecCase s (.publish i u notification) ()
      (s.publish i ⟨u, s.now, notification⟩)
  | create {body t} : ExecCase s (.create body) (NotificationRepository.create s.db body t).2
      { s with db := (NotificationRepository.create s.db body t).1 }
  | markDeliveredLive {n} : ExecCase s (.markDeliveredLive n) ()
      { s with db := NotificationRepository.markDeliveredLive s.db n }
  | markRead {n u} : ExecCase s (.markRead n u)
      (NotificationRepository.markRead s.db n u s.now).2
      { s with db := (NotificationRepository.markRead s.db n u s.now).1 }
  | add {i u n} : ExecCase s (.add i u n) () (s.setConnections i ((s.connections i).set u n))
  | remove {i u} : ExecCase s (.remove i u) () (s.setConnections i ((s.connections i).pop u))
  | popSocket {i u} : ExecCase s (.popSocket i u) ((s.connections i).get u)
      (s.setConnections i ((s.connections i).pop u))
  | subscribe {i} : ExecCase s (.subscribe i) () (s.setChannel i (some []))
  | nextMessage {i message queue} :
      s.channels (instanceChannel i) = some (message :: queue) →
      ExecCase s (.nextMessage i) message (s.setChannel i (some queue))
  | unsubscribe {i} : ExecCase s (.unsubscribe i) () (s.setChannel i none)
  | quiet {o : Op} {reply : o.Reply} : o.quiet = true → ExecCase s o reply s

theorem Shared.exec_cases (h : s.exec op c = some (sh, reply)) : ExecCase s op reply sh := by
  cases op with
  | redis cmd =>
    simp only [exec, Option.map_eq_some_iff, Prod.mk.injEq] at h
    obtain ⟨⟨r, reply'⟩, hx, rfl, rfl⟩ := h
    exact .redis hx
  | nextMessage i =>
    simp only [exec] at h
    split at h
    · rename_i queue hq
      obtain ⟨rfl, rfl⟩ := by simpa using h
      exact .nextMessage hq
    · simp at h
  | publish _ _ _ =>
    cases h
    exact .publish
  | create body =>
    cases c <;> cases h
    exact .create
  | markDeliveredLive n =>
    cases h
    exact .markDeliveredLive
  | markRead n u =>
    cases h
    exact .markRead
  | add i u n =>
    cases h
    exact .add
  | remove i u =>
    cases h
    exact .remove
  | popSocket i u =>
    cases h
    exact .popSocket
  | subscribe i =>
    cases h
    exact .subscribe
  | unsubscribe i =>
    cases h
    exact .unsubscribe
  | getUnreadBacklog _ _ | receive _ =>
    cases c <;> cases h
    exact .quiet rfl
  | getSocket _ _ | connectedUserIds _ | accept _ | close _ _ _ | send _ _ | sleep =>
    cases h
    exact .quiet rfl

theorem Shared.publish_now {i : String} {m : PubSubMessage} : (s.publish i m).now = s.now := by
  unfold publish
  split <;> rfl

theorem Shared.publish_redis {i : String} {m : PubSubMessage} :
    (s.publish i m).redis = s.redis := by
  unfold publish
  split <;> rfl

theorem Shared.exec_now (h : s.exec op c = some (sh, reply)) : sh.now = s.now := by
  cases exec_cases h with
  | publish => exact publish_now
  | _ => rfl

theorem Shared.exec_redis {cmd : RedisCmd} {reply : cmd.Reply}
    (h : s.exec (.redis cmd) c = some (sh, reply)) :
    ∃ r, cmd.exec s.redis s.now = some (r, reply) ∧ sh = { s with redis := r } := by
  cases exec_cases h with
  | redis hx => exact ⟨_, hx, rfl⟩
  | quiet hquiet => cases hquiet

/-- Only a command on the key itself changes what is stored under it. -/
theorem Shared.exec_redis_frame {k : String} (h : s.exec op c = some (sh, reply))
    (hk : ∀ cmd, op = .redis cmd → cmd.key ≠ k) : sh.redis k = s.redis k := by
  cases exec_cases h with
  | redis hx => exact RedisCmd.exec_frame hx (Ne.symm (hk _ rfl))
  | publish => rw [publish_redis]
  | _ => rfl

/-- What an operation does to what is stored under `k`. -/
inductive KeyEffect (s sh : Shared) (k : String) : (op : Op) → op.Reply → Prop where
  | other {o : Op} {r : o.Reply} : (∀ cmd, o = .redis cmd → cmd.key ≠ k) →
      sh.redis k = s.redis k → KeyEffect s sh k o r
  | sent {cmd r} {reply : cmd.Reply} : cmd.key = k →
      cmd.exec s.redis s.now = some (r, reply) → sh = { s with redis := r } →
      KeyEffect s sh k (.redis cmd) reply

theorem Shared.exec_key (h : s.exec op c = some (sh, reply)) (k : String) :
    KeyEffect s sh k op reply := by
  by_cases hop : ∀ cmd, op = .redis cmd → cmd.key ≠ k
  · exact .other hop (exec_redis_frame h hop)
  · simp only [not_forall, not_not] at hop
    obtain ⟨cmd, rfl, hkey⟩ := hop
    obtain ⟨r, hcmd, hsh⟩ := exec_redis h
    exact .sent hkey hcmd hsh

/-- How what is stored under `k` came to be what it is after a step. -/
inductive KeyCase (env : Env) (w : World) (a : Action) (w' : World) (k : String) : Prop where
  | kept : w'.shared.redis k = w.shared.redis k → KeyCase env w a w' k
  | evicted {n} : a = .expireDedup n → k = dedupKey n → KeyCase env w a w' k
  | sent {id o cmd r} {reply : cmd.Reply} : a = .task id o → o ≠ .fail →
      w.awaits env id = some (.redis cmd) → cmd.key = k →
      cmd.exec w.shared.redis w.shared.now = some (r, reply) →
      w'.shared = { w.shared with redis := r } → KeyCase env w a w' k

theorem Stepped.key_cases {w' : World} {a : Action} (h : Stepped env w a w') (k : String) :
    KeyCase env w a w' k := by
  have heffect : ∀ {id o op c sh} {reply : op.Reply}, a = .task id o → o ≠ .fail →
      w.awaits env id = some op → w.shared.exec op c = some (sh, reply) → w'.shared = sh →
      KeyCase env w a w' k := by
    intro id o op c sh reply ha ho haw hx hsh
    cases Shared.exec_key hx k with
    | other _ hkept => exact .kept (hsh ▸ hkept)
    | sent hkey hcmd hr => exact .sent ha ho haw hkey hcmd (hsh.trans hr)
  obtain ⟨sh, log, hsh, -, ht⟩ := h.touched
  cases ht with
  | tick | crash | started _ | raised _ _ => exact .kept (congrArg (·.redis k) hsh)
  | @expireDedup n =>
    by_cases hk : k = dedupKey n
    · exact .evicted rfl hk
    · exact .kept (by rw [hsh, Shared.evict_redis, Store.erase_ne hk])
  | returned ha hx => exact heffect rfl (by simp) ha hx hsh
  | applied ha _ hx => exact heffect rfl (by simp) ha hx hsh

/-- Only a tick lets time pass. -/
theorem Stepped.now_cases {w' : World} {a : Action} (h : Stepped env w a w') :
    w'.shared.now = w.shared.now ∨ ∃ d, a = .tick d ∧ w'.shared.now = w.shared.now + d := by
  obtain ⟨sh, log, hsh, -, ht⟩ := h.touched
  rw [hsh]
  cases ht with
  | @tick d => exact .inr ⟨d, rfl, rfl⟩
  | expireDedup | crash | started _ | raised _ _ => exact .inl rfl
  | returned _ hx => exact .inl (Shared.exec_now hx)
  | applied _ _ hx => exact .inl (Shared.exec_now hx)

theorem Stepped.now_le {w' : World} {a : Action} (h : Stepped env w a w') :
    w.shared.now ≤ w'.shared.now := by
  rcases h.now_cases with hnow | ⟨d, -, hnow⟩ <;> omega

theorem Shared.publish_db {i : String} {m : PubSubMessage} : (s.publish i m).db = s.db := by
  unfold publish
  split <;> rfl

/-- Only the creation of a notification changes the records. -/
theorem Shared.exec_records_frame (h : s.exec op c = some (sh, reply))
    (hop : op.ofCreation = false) : sh.db.records = s.db.records := by
  cases exec_cases h with
  | create | publish | markDeliveredLive => cases hop
  | markRead => exact NotificationRepository.records_markRead
  | _ => rfl

theorem Shared.exec_create {body : NotificationCreate} {row : Option Notification}
    (h : s.exec (.create body) c = some (sh, row)) :
    ∃ t, NotificationRepository.create s.db body t = (sh.db, row) := by
  cases exec_cases h with
  | create => exact ⟨_, rfl⟩
  | quiet hquiet => cases hquiet

/-- What an operation does to the tables. -/
inductive DatabaseCase (s sh : Shared) : Op → Prop where
  | kept {o : Op} : sh.db = s.db → DatabaseCase s sh o
  | created {body t} : sh.db = (NotificationRepository.create s.db body t).1 →
      DatabaseCase s sh (.create body)
  | delivered {n} : sh.db = NotificationRepository.markDeliveredLive s.db n →
      DatabaseCase s sh (.markDeliveredLive n)
  | read {n u} : sh.db = (NotificationRepository.markRead s.db n u s.now).1 →
      DatabaseCase s sh (.markRead n u)

theorem Shared.exec_db (h : s.exec op c = some (sh, reply)) : DatabaseCase s sh op := by
  cases exec_cases h with
  | create => exact .created rfl
  | publish => exact .kept publish_db
  | markDeliveredLive => exact .delivered rfl
  | markRead => exact .read rfl
  | _ => exact .kept rfl

/-- A step writes to the tables by the operation its task awaits. -/
theorem Stepped.database_cases {w' : World} {a : Action} (h : Stepped env w a w') :
    w'.shared.db = w.shared.db ∨ ∃ id o op, a = .task id o ∧ o ≠ .fail ∧
      w.awaits env id = some op ∧ DatabaseCase w.shared w'.shared op := by
  obtain ⟨sh, log, hsh, -, ht⟩ := h.touched
  rw [hsh]
  cases ht with
  | tick | expireDedup | crash | started _ | raised _ _ => exact .inl rfl
  | returned ha hx => exact .inr ⟨_, _, _, rfl, by simp, ha, Shared.exec_db hx⟩
  | applied ha _ hx => exact .inr ⟨_, _, _, rfl, by simp, ha, Shared.exec_db hx⟩

/-- What an operation does to the connection maps. -/
inductive ConnectionsCase (s sh : Shared) : Op → Prop where
  | kept {o : Op} : (∀ i u n, o ≠ .add i u n) → sh.connections = s.connections →
      ConnectionsCase s sh o
  | added {i u n} : (∀ j v, (sh.connections j).get v =
      if j = i ∧ v = u then some n else (s.connections j).get v) →
      ConnectionsCase s sh (.add i u n)
  | removed {o : Op} {i u} : o = .remove i u ∨ o = .popSocket i u → (∀ j v,
      (sh.connections j).get v = if j = i ∧ v = u then none else (s.connections j).get v) →
      ConnectionsCase s sh o

theorem Shared.get_pop {i j u v : String} :
    ((s.setConnections i ((s.connections i).pop u)).connections j).get v =
      if j = i ∧ v = u then none else (s.connections j).get v := by
  by_cases hj : j = i
  · subst hj
    by_cases hv : v = u
    · subst hv
      simp [setConnections, Dict.get_pop_self]
    · simp [setConnections, hv, Dict.get_pop_ne hv]
  · simp [setConnections, hj]

theorem Shared.get_set {i j u v : String} {n : Nat} :
    ((s.setConnections i ((s.connections i).set u n)).connections j).get v =
      if j = i ∧ v = u then some n else (s.connections j).get v := by
  by_cases hj : j = i
  · subst hj
    by_cases hv : v = u
    · subst hv
      simp [setConnections, Dict.get_set_self]
    · simp [setConnections, hv, Dict.get_set_ne hv]
  · simp [setConnections, hj]

theorem Shared.publish_connections {i : String} {m : PubSubMessage} :
    (s.publish i m).connections = s.connections := by
  unfold publish
  split <;> rfl

theorem Shared.exec_connections (h : s.exec op c = some (sh, reply)) :
    ConnectionsCase s sh op := by
  cases exec_cases h with
  | add => exact .added fun j v => get_set
  | remove => exact .removed (.inl rfl) fun j v => get_pop
  | popSocket => exact .removed (.inr rfl) fun j v => get_pop
  | publish => exact .kept (by simp) publish_connections
  | quiet hquiet =>
    refine .kept ?_ rfl
    rintro i u n rfl
    cases hquiet
  | _ => exact .kept (by simp) rfl

theorem Shared.exec_nextMessage {i : String} {message : PubSubMessage}
    (h : s.exec (.nextMessage i) c = some (sh, message)) :
    ∃ queue, s.channels (instanceChannel i) = some (message :: queue) ∧
      sh = s.setChannel i (some queue) := by
  cases exec_cases h with
  | nextMessage hq => exact ⟨_, hq, rfl⟩
  | quiet hquiet => cases hquiet

theorem Shared.exec_getSocket {i u : String} {socket : Option Nat}
    (h : s.exec (.getSocket i u) c = some (sh, socket)) :
    sh = s ∧ socket = (s.connections i).get u := by
  obtain ⟨rfl, rfl⟩ := by simpa [exec] using h
  exact ⟨rfl, rfl⟩

/-- What an operation does to the channels. -/
inductive ChannelsCase (s sh : Shared) : (op : Op) → op.Reply → Prop where
  | kept {o : Op} {r : o.Reply} : sh.channels = s.channels → ChannelsCase s sh o r
  | published {i u notification} : sh = s.publish i ⟨u, s.now, notification⟩ →
      ChannelsCase s sh (.publish i u notification) ()
  | subscribed {i} : sh = s.setChannel i (some []) → ChannelsCase s sh (.subscribe i) ()
  | taken {i message queue} : s.channels (instanceChannel i) = some (message :: queue) →
      sh = s.setChannel i (some queue) → ChannelsCase s sh (.nextMessage i) message
  | unsubscribed {i} : sh = s.setChannel i none → ChannelsCase s sh (.unsubscribe i) ()

theorem Shared.exec_channels (h : s.exec op c = some (sh, reply)) :
    ChannelsCase s sh op reply := by
  cases exec_cases h with
  | publish => exact .published rfl
  | subscribe => exact .subscribed rfl
  | unsubscribe => exact .unsubscribed rfl
  | nextMessage hq => exact .taken hq rfl
  | _ => exact .kept rfl

/-! ## Callers of commands -/

/-- Who works on the presence keys of `u`, and how. -/
inductive PresenceCaller (env : Env) (w : World) (u : String) : TaskId → RedisCmd → Prop where
  | online {n s} : w.sessions n = some s → s.pc = .markOnline u →
      PresenceCaller env w u (.session n) (PresenceStore.setOnline u env.presenceTtlSeconds)
  | heartbeat {n s} : w.sessions n = some s → s.pc = .heartbeat u →
      PresenceCaller env w u (.session n) (PresenceStore.refresh u env.presenceTtlSeconds)
  | update {n s online} : w.sessions n = some s → s.pc = .presence u online →
      PresenceCaller env w u (.session n)
        (if online then PresenceStore.setOnline u env.presenceTtlSeconds
          else PresenceStore.setAway u env.presenceTtlSeconds)
  | seen {n s} : w.sessions n = some s →
      s.pc = .onlineSeen u ∨ s.pc = .heartbeatSeen u ∨ s.pc = .presenceSeen u →
      PresenceCaller env w u (.session n) (PresenceStore.touchLastSeen u)
  | leave {n s} : w.sessions n = some s → s.pc = .markOffline u →
      PresenceCaller env w u (.session n) (PresenceStore.clear u)
  | shutdown {i p todo} : w.processes i = some p → p.lifespan = .clearing u todo →
      PresenceCaller env w u (.lifespan i) (PresenceStore.clear u)

/-- One of the two keys of the user. -/
theorem PresenceCaller.key {u : String} {id : TaskId} {cmd : RedisCmd}
    (h : PresenceCaller env w u id cmd) : cmd.key = presenceKey u ∨ cmd.key = lastSeenKey u := by
  cases h with
  | seen _ _ => exact .inr rfl
  | @update _ _ online _ _ => cases online <;> exact .inl rfl
  | _ => exact .inl rfl

theorem PresenceCaller.initial {u : String} {id : TaskId} {cmd : RedisCmd}
    (h : PresenceCaller env w u id cmd) : keyInitial cmd.key = some 'p' := by
  rcases h.key with hk | hk <;> simp [hk]

/-- Who sends which command. The rate limiter is told by its key alone. -/
inductive CommandCaller (env : Env) (w : World) : TaskId → RedisCmd → Prop where
  | redeem {n s ticket} : w.sessions n = some s → s.pc = .redeem ticket →
      CommandCaller env w (.session n) (WSTicketAuth.redeemTicket ticket)
  | issue {n r u ticket} : w.ticketRequests n = some r → r.pc = .issue u ticket →
      CommandCaller env w (.ticketRequest n)
        (WSTicketAuth.issueTicket ticket u env.wsTicketTtlSeconds)
  | register {n s u} : w.sessions n = some s → s.pc = .register u →
      CommandCaller env w (.session n)
        (InstanceRegistry.register u s.instanceId env.presenceTtlSeconds)
  | refresh {n s u} : w.sessions n = some s → s.pc = .refresh u →
      CommandCaller env w (.session n) (InstanceRegistry.refresh u env.presenceTtlSeconds)
  | unregister {n s u} : w.sessions n = some s → s.pc = .unregister u →
      CommandCaller env w (.session n) (InstanceRegistry.unregister u)
  | shutdown {i p u todo} : w.processes i = some p → p.lifespan = .unregistering u todo →
      CommandCaller env w (.lifespan i) (InstanceRegistry.unregister u)
  | lookup {n r row} : w.requests n = some r → r.pc = .lookup row →
      CommandCaller env w (.request n) (InstanceRegistry.lookup r.body.userId.str)
  | isAlive {n r row owner} : w.requests n = some r → r.pc = .isAlive row owner →
      CommandCaller env w (.request n) (InstanceRegistry.isAlive owner)
  | start {i p} : w.processes i = some p → p.lifespan = .markingAlive →
      CommandCaller env w (.lifespan i)
        (InstanceRegistry.markAlive i env.instanceLivenessTtlSeconds)
  | beat {i p} : w.processes i = some p → p.liveness = .markingAlive →
      CommandCaller env w (.liveness i)
        (InstanceRegistry.markAlive i env.instanceLivenessTtlSeconds)
  | hasSeen {n r} : w.requests n = some r → r.pc = .hasSeen →
      CommandCaller env w (.request n) (IdempotencyGuard.hasSeen r.body.notificationId)
  | markSeen {n r row} : w.requests n = some r → r.pc = .markSeen row →
      CommandCaller env w (.request n)
        (IdempotencyGuard.markSeen r.body.notificationId env.idempotencyTtlSeconds)
  | presence {id cmd u} : PresenceCaller env w u id cmd → CommandCaller env w id cmd
  | allow {id cmd} : keyInitial cmd.key = some 'r' → CommandCaller env w id cmd

theorem World.commandCaller {id : TaskId} {cmd : RedisCmd}
    (h : w.awaits env id = some (.redis cmd)) : CommandCaller env w id cmd := by
  cases World.awaiting h with
  | @session n s _ hs h =>
    obtain ⟨i, c, pc⟩ := s
    cases pc with
    | redeem ticket =>
      cases h
      exact .redeem hs rfl
    | register u =>
      cases h
      exact .register hs rfl
    | refresh u =>
      cases h
      exact .refresh hs rfl
    | unregister u =>
      cases h
      exact .unregister hs rfl
    | allow u fields =>
      cases h
      exact .allow (by simp)
    | presence u online =>
      cases h
      exact .presence (.update hs rfl)
    | markOnline u =>
      cases h
      exact .presence (.online hs rfl)
    | heartbeat u =>
      cases h
      exact .presence (.heartbeat hs rfl)
    | markOffline u =>
      cases h
      exact .presence (.leave hs rfl)
    | onlineSeen u | heartbeatSeen u | presenceSeen u =>
      cases h
      exact .presence (.seen hs (by simp))
    | _ => cases h
  | @request n r _ hr h =>
    obtain ⟨i, client, body, pc⟩ := r
    cases pc with
    | allow =>
      cases h
      exact .allow (by simp)
    | hasSeen =>
      cases h
      exact .hasSeen hr rfl
    | markSeen row =>
      cases h
      exact .markSeen hr rfl
    | lookup row =>
      cases h
      exact .lookup hr rfl
    | isAlive row owner =>
      cases h
      exact .isAlive hr rfl
    | _ => cases h
  | @ticketRequest n r _ hr h =>
    obtain ⟨i, claims, token, pc⟩ := r
    cases pc with
    | issue u ticket =>
      cases h
      exact .issue hr rfl
    | _ => cases h
  | @subscriber i p _ hp h =>
    obtain ⟨_, pc, _⟩ := p
    cases pc <;> cases h
  | @lifespan i p _ hp h =>
    obtain ⟨pc, _, _⟩ := p
    cases pc with
    | unregistering u todo =>
      cases h
      exact .shutdown hp rfl
    | markingAlive =>
      cases h
      exact .start hp rfl
    | clearing u todo =>
      cases h
      exact .presence (.shutdown hp rfl)
    | _ => cases h
  | @liveness i p _ hp h =>
    obtain ⟨_, _, pc⟩ := p
    cases pc with
    | sleeping => cases h
    | markingAlive =>
      cases h
      exact .beat hp rfl

/-- Who sends a command on the registry entry of `u`, and which. -/
inductive RegistryCaller (env : Env) (w : World) (u : String) : TaskId → RedisCmd → Prop where
  | register {n s} : w.sessions n = some s → s.pc = .register u →
      RegistryCaller env w u (.session n)
        (InstanceRegistry.register u s.instanceId env.presenceTtlSeconds)
  | refresh {n s} : w.sessions n = some s → s.pc = .refresh u →
      RegistryCaller env w u (.session n) (InstanceRegistry.refresh u env.presenceTtlSeconds)
  | unregister {n s} : w.sessions n = some s → s.pc = .unregister u →
      RegistryCaller env w u (.session n) (InstanceRegistry.unregister u)
  | shutdown {i p todo} : w.processes i = some p → p.lifespan = .unregistering u todo →
      RegistryCaller env w u (.lifespan i) (InstanceRegistry.unregister u)
  | lookup {n r row} : w.requests n = some r → r.pc = .lookup row → r.body.userId.str = u →
      RegistryCaller env w u (.request n) (InstanceRegistry.lookup u)

theorem World.registryCaller {id : TaskId} {cmd : RedisCmd} {u : String}
    (h : w.awaits env id = some (.redis cmd)) (hk : cmd.key = registryKey u) :
    RegistryCaller env w u id cmd := by
  have hinit : keyInitial cmd.key = some 'u' := by rw [hk, keyInitial_registryKey]
  cases World.commandCaller h with
  | register hs hpc =>
    obtain rfl := by simpa using hk
    exact .register hs hpc
  | refresh hs hpc =>
    obtain rfl := by simpa using hk
    exact .refresh hs hpc
  | unregister hs hpc =>
    obtain rfl := by simpa using hk
    exact .unregister hs hpc
  | shutdown hp hpc =>
    obtain rfl := by simpa using hk
    exact .shutdown hp hpc
  | lookup hr hpc =>
    obtain rfl := by simpa using hk
    exact .lookup hr hpc rfl
  | presence h => simp [h.initial] at hinit
  | allow h => simp [h] at hinit
  | _ => simp at hinit

/-- Who sends a command on the dedup key of `n`, and which. -/
inductive DedupCaller (env : Env) (w : World) (n : UUID) : TaskId → RedisCmd → Prop where
  | hasSeen {m r} : w.requests m = some r → r.pc = .hasSeen → r.body.notificationId = n →
      DedupCaller env w n (.request m) (IdempotencyGuard.hasSeen n)
  | markSeen {m r row} : w.requests m = some r → r.pc = .markSeen row →
      r.body.notificationId = n →
      DedupCaller env w n (.request m) (IdempotencyGuard.markSeen n env.idempotencyTtlSeconds)

theorem World.dedupCaller {id : TaskId} {cmd : RedisCmd} {n : UUID}
    (h : w.awaits env id = some (.redis cmd)) (hk : cmd.key = dedupKey n) :
    DedupCaller env w n id cmd := by
  have hinit : keyInitial cmd.key = some 'n' := by rw [hk, keyInitial_dedupKey]
  cases World.commandCaller h with
  | hasSeen hr hpc =>
    obtain rfl := by simpa using hk
    exact .hasSeen hr hpc rfl
  | markSeen hr hpc =>
    obtain rfl := by simpa using hk
    exact .markSeen hr hpc rfl
  | presence h => simp [h.initial] at hinit
  | allow h => simp [h] at hinit
  | _ => simp at hinit

/-- Who sends a command on the key of `ticket`, and which. -/
inductive TicketCaller (env : Env) (w : World) (ticket : String) : TaskId → RedisCmd → Prop where
  | redeem {n s} : w.sessions n = some s → s.pc = .redeem ticket →
      TicketCaller env w ticket (.session n) (WSTicketAuth.redeemTicket ticket)
  | issue {n r u} : w.ticketRequests n = some r → r.pc = .issue u ticket →
      TicketCaller env w ticket (.ticketRequest n)
        (WSTicketAuth.issueTicket ticket u env.wsTicketTtlSeconds)

theorem World.ticketCaller {id : TaskId} {cmd : RedisCmd} {ticket : String}
    (h : w.awaits env id = some (.redis cmd)) (hk : cmd.key = ticketKey ticket) :
    TicketCaller env w ticket id cmd := by
  have hinit : keyInitial cmd.key = some 'w' := by rw [hk, keyInitial_ticketKey]
  cases World.commandCaller h with
  | redeem hs hpc =>
    obtain rfl := by simpa using hk
    exact .redeem hs hpc
  | issue hr hpc =>
    obtain rfl := by simpa using hk
    exact .issue hr hpc
  | presence h => simp [h.initial] at hinit
  | allow h => simp [h] at hinit
  | _ => simp at hinit

/-- Who sends a command on the liveness key of `i`, and which. -/
inductive LivenessCaller (env : Env) (w : World) (i : String) : TaskId → RedisCmd → Prop where
  | start {p} : w.processes i = some p → p.lifespan = .markingAlive →
      LivenessCaller env w i (.lifespan i)
        (InstanceRegistry.markAlive i env.instanceLivenessTtlSeconds)
  | beat {p} : w.processes i = some p → p.liveness = .markingAlive →
      LivenessCaller env w i (.liveness i)
        (InstanceRegistry.markAlive i env.instanceLivenessTtlSeconds)
  | isAlive {n r row} : w.requests n = some r → r.pc = .isAlive row i →
      LivenessCaller env w i (.request n) (InstanceRegistry.isAlive i)

theorem World.livenessCaller {id : TaskId} {cmd : RedisCmd} {i : String}
    (h : w.awaits env id = some (.redis cmd)) (hk : cmd.key = livenessKey i) :
    LivenessCaller env w i id cmd := by
  have hinit : keyInitial cmd.key = some 'i' := by rw [hk, keyInitial_livenessKey]
  cases World.commandCaller h with
  | start hp hpc =>
    obtain rfl := by simpa using hk
    exact .start hp hpc
  | beat hp hpc =>
    obtain rfl := by simpa using hk
    exact .beat hp hpc
  | isAlive hr hpc =>
    obtain rfl := by simpa using hk
    exact .isAlive hr hpc
  | presence h => simp [h.initial] at hinit
  | allow h => simp [h] at hinit
  | _ => simp at hinit

theorem World.presenceCaller {id : TaskId} {cmd : RedisCmd} {u : String}
    (h : w.awaits env id = some (.redis cmd)) (hk : cmd.key = presenceKey u)
    (hu : ∀ v, presenceKey u ≠ lastSeenKey v) : PresenceCaller env w u id cmd := by
  have hinit : keyInitial cmd.key = some 'p' := by rw [hk, keyInitial_presenceKey]
  cases World.commandCaller h with
  | @presence _ _ v hv =>
    rcases hv.key with hkey | hkey
    · obtain rfl := presenceKey_inj.mp (hkey.symm.trans hk)
      exact hv
    · exact absurd (hk.symm.trans hkey) (hu v)
  | allow h => simp [h] at hinit
  | _ => simp at hinit

/-! ## Callers of the repository's writes -/

/-- Who writes a row, publishes it or marks it. -/
inductive CreationCaller (w : World) : TaskId → Op → Prop where
  | create {n r} : w.requests n = some r → r.pc = .create →
      CreationCaller w (.request n) (.create r.body)
  | publish {n r row owner} : w.requests n = some r → r.pc = .publish row owner →
      CreationCaller w (.request n) (.publish owner r.body.userId.str row.envelope.live)
  | markDelivered {n r row} : w.requests n = some r → r.pc = .markDelivered row →
      CreationCaller w (.request n) (.markDeliveredLive row.notificationId)

theorem World.creationCaller {id : TaskId} {op : Op} (h : w.awaits env id = some op)
    (hop : op.ofCreation = true) : CreationCaller w id op := by
  cases World.awaiting h with
  | @session n s _ hs h =>
    obtain ⟨i, c, pc⟩ := s
    cases pc <;> cases h <;> simp [Op.ofCreation] at hop
  | @request n r _ hr h =>
    obtain ⟨i, client, body, pc⟩ := r
    cases pc with
    | create =>
      cases h
      exact .create hr rfl
    | publish row owner =>
      cases h
      exact .publish hr rfl
    | markDelivered row =>
      cases h
      exact .markDelivered hr rfl
    | _ => cases h <;> simp [Op.ofCreation] at hop
  | @ticketRequest n r _ hr h =>
    obtain ⟨i, claims, token, pc⟩ := r
    cases pc with
    | issue userId ticket =>
      cases h
      simp [Op.ofCreation] at hop
    | _ => cases h
  | @subscriber i p _ hp h =>
    obtain ⟨_, pc, _⟩ := p
    cases pc <;> cases h <;> simp [Op.ofCreation] at hop
  | @lifespan i p _ hp h =>
    obtain ⟨pc, _, _⟩ := p
    cases pc <;> cases h <;> simp [Op.ofCreation] at hop
  | @liveness i p _ hp h =>
    obtain ⟨_, _, pc⟩ := p
    cases pc with
    | sleeping | markingAlive =>
      cases h
      simp [Op.ofCreation] at hop

/-! ## Callers of sends and of what an instance keeps -/

/-- Who sends on a socket, and what. -/
inductive SendCaller (w : World) : TaskId → Op → Prop where
  | backlog {n s u rows} : w.sessions n = some s → s.pc = .backlogSend u rows →
      SendCaller w (.session n) (.send n (.backlog (rows.map (·.envelope))))
  | respond {n s u frame} : w.sessions n = some s → s.pc = .respond u frame →
      SendCaller w (.session n) (.send n frame)
  | live {i p u n frame} : w.processes i = some p → p.subscriber = .sending u n frame →
      SendCaller w (.subscriber i) (.send n frame)

theorem World.sendCaller {id : TaskId} {n : Nat} {frame : Frame}
    (h : w.awaits env id = some (.send n frame)) : SendCaller w id (.send n frame) := by
  cases World.awaiting h with
  | @session m s _ hs h =>
    obtain ⟨i, c, pc⟩ := s
    cases pc with
    | backlogSend u rows =>
      cases h
      exact .backlog hs rfl
    | respond u frame =>
      cases h
      exact .respond hs rfl
    | _ => cases h
  | @request m r _ hr h =>
    obtain ⟨i, client, body, pc⟩ := r
    cases pc <;> cases h
  | @ticketRequest m r _ hr h =>
    obtain ⟨i, claims, token, pc⟩ := r
    cases pc <;> cases h
  | @subscriber i p _ hp h =>
    obtain ⟨_, pc, _⟩ := p
    cases pc with
    | sending u m frame =>
      cases h
      exact .live hp rfl
    | _ => cases h
  | @lifespan i p _ hp h =>
    obtain ⟨pc, _, _⟩ := p
    cases pc <;> cases h
  | @liveness i p _ hp h =>
    obtain ⟨_, _, pc⟩ := p
    cases pc <;> cases h

/-- Who works on a connection map or a channel subscription, and how. -/
inductive LocalCaller (w : World) : TaskId → Op → Prop where
  | add {n s u} : w.sessions n = some s → s.pc = .add u →
      LocalCaller w (.session n) (.add s.instanceId u n)
  | leave {n s u} : w.sessions n = some s → s.pc = .remove u →
      LocalCaller w (.session n) (.remove s.instanceId u)
  | listen {i p} : w.processes i = some p → p.subscriber = .listening →
      LocalCaller w (.subscriber i) (.nextMessage i)
  | deliver {i p message} : w.processes i = some p → p.subscriber = .delivering message →
      LocalCaller w (.subscriber i) (.getSocket i message.userId)
  | drop {i p u n} : w.processes i = some p → p.subscriber = .dropping u n →
      LocalCaller w (.subscriber i) (.remove i u)
  | subscribe {i p} : w.processes i = some p → p.lifespan = .subscribing →
      LocalCaller w (.lifespan i) (.subscribe i)
  | collect {i p} : w.processes i = some p → p.lifespan = .collecting →
      LocalCaller w (.lifespan i) (.connectedUserIds i)
  | pop {i p all u todo} : w.processes i = some p → p.lifespan = .popping all u todo →
      LocalCaller w (.lifespan i) (.popSocket i u)
  | unsubscribe {i p} : w.processes i = some p → p.lifespan = .unsubscribing →
      LocalCaller w (.lifespan i) (.unsubscribe i)

theorem World.localCaller {id : TaskId} {op : Op} (h : w.awaits env id = some op)
    (hop : op.ofInstance = true) : LocalCaller w id op := by
  cases World.awaiting h with
  | @session n s _ hs h =>
    obtain ⟨i, c, pc⟩ := s
    cases pc with
    | add u =>
      cases h
      exact .add hs rfl
    | remove u =>
      cases h
      exact .leave hs rfl
    | _ => cases h <;> simp [Op.ofInstance] at hop
  | @request n r _ hr h =>
    obtain ⟨i, client, body, pc⟩ := r
    cases pc <;> cases h <;> simp [Op.ofInstance] at hop
  | @ticketRequest n r _ hr h =>
    obtain ⟨i, claims, token, pc⟩ := r
    cases pc <;> cases h
    simp [Op.ofInstance] at hop
  | @subscriber i p _ hp h =>
    obtain ⟨_, pc, _⟩ := p
    cases pc with
    | listening =>
      cases h
      exact .listen hp rfl
    | delivering message =>
      cases h
      exact .deliver hp rfl
    | dropping u n =>
      cases h
      exact .drop hp rfl
    | sending _ _ _ =>
      cases h
      simp [Op.ofInstance] at hop
    | dead => cases h
  | @lifespan i p _ hp h =>
    obtain ⟨pc, _, _⟩ := p
    cases pc with
    | subscribing =>
      cases h
      exact .subscribe hp rfl
    | collecting =>
      cases h
      exact .collect hp rfl
    | popping all u todo =>
      cases h
      exact .pop hp rfl
    | unsubscribing =>
      cases h
      exact .unsubscribe hp rfl
    | _ => cases h <;> simp [Op.ofInstance] at hop
  | @liveness i p _ hp h =>
    obtain ⟨_, _, pc⟩ := p
    cases pc with
    | sleeping | markingAlive =>
      cases h
      simp [Op.ofInstance] at hop

/-- Only a session at `add` enters itself in a map. -/
theorem World.addCaller {id : TaskId} {i u : String} {n : Nat}
    (h : w.awaits env id = some (.add i u n)) :
    ∃ s, id = .session n ∧ w.sessions n = some s ∧ s.instanceId = i ∧ s.pc = .add u := by
  cases World.localCaller h rfl with
  | add hs hpc => exact ⟨_, rfl, hs, rfl, hpc⟩

/-- How the entry of `u` in the map of `i` came to be what it is after a step. -/
inductive MapCase (env : Env) (w : World) (a : Action) (w' : World) (i u : String) : Prop where
  | kept : (w'.shared.connections i).get u = (w.shared.connections i).get u →
      MapCase env w a w' i u
  | added {n s o} : a = .task (.session n) o → w.sessions n = some s → s.instanceId = i →
      s.pc = .add u → (w'.shared.connections i).get u = some n → MapCase env w a w' i u
  | removed {id o op} : a = .task id o → w.awaits env id = some op →
      op = .remove i u ∨ op = .popSocket i u → (w'.shared.connections i).get u = none →
      MapCase env w a w' i u
  | crashed : a = .crash i → (w'.shared.connections i).get u = none → MapCase env w a w' i u

theorem Stepped.map_cases {w' : World} {a : Action} (h : Stepped env w a w') (i u : String) :
    MapCase env w a w' i u := by
  have heffect : ∀ {id o op c sh} {reply : op.Reply}, a = .task id o →
      w.awaits env id = some op → w.shared.exec op c = some (sh, reply) → w'.shared = sh →
      MapCase env w a w' i u := by
    intro id o op c sh reply ha haw hx hsh
    subst hsh
    cases Shared.exec_connections hx with
    | kept _ hsame => exact .kept (by rw [hsame])
    | @added j v n hadd =>
      by_cases hiu : i = j ∧ u = v
      · obtain ⟨rfl, rfl⟩ := hiu
        obtain ⟨s, rfl, hs, hi, hpc⟩ := World.addCaller haw
        exact .added ha hs hi hpc (by rw [hadd, if_pos ⟨rfl, rfl⟩])
      · exact .kept (by rw [hadd, if_neg hiu])
    | @removed _ j v hop hrem =>
      by_cases hiu : i = j ∧ u = v
      · obtain ⟨rfl, rfl⟩ := hiu
        exact .removed ha haw hop (by rw [hrem, if_pos ⟨rfl, rfl⟩])
      · exact .kept (by rw [hrem, if_neg hiu])
  obtain ⟨sh, log, hsh, -, ht⟩ := h.touched
  cases ht with
  | tick | expireDedup | started _ | raised _ _ =>
    exact .kept (congrArg (fun s => (s.connections i).get u) hsh)
  | @crash j =>
    by_cases hij : i = j
    · subst hij
      exact .crashed rfl (by rw [hsh]; simp [Shared.setConnections])
    · refine .kept ?_
      rw [hsh]
      simp [Shared.setConnections, Shared.setChannel, hij]
  | returned ha hx => exact heffect rfl ha hx hsh
  | applied ha _ hx => exact heffect rfl ha hx hsh

/-- A subscriber that is about to send was so before, or has just looked the socket
up in the map of its instance. -/
theorem Stepped.sending_cases {w' : World} {a : Action} (h : Stepped env w a w')
    {i u : String} {n : Nat} {frame : Frame} {p' : Process} (hp' : w'.processes i = some p')
    (hpc : p'.subscriber = .sending u n frame) :
    (∃ p, w.processes i = some p ∧ p.subscriber = .sending u n frame) ∨
    ∃ (message : PubSubMessage) (c : Choice), a = .task (.subscriber i) (.ok c) ∧
      w.awaits env (.subscriber i) = some (.getSocket i message.userId) ∧
      (w.shared.connections i).get message.userId = some n ∧
      frame = .notification message.notification := by
  cases h.process_cases hp' with
  | same hp => exact .inl ⟨_, hp, hpc⟩
  | new _ _ _ => cases hpc
  | lifespan hp _ _ _ _ | liveness hp _ _ _ _ => exact .inl ⟨_, hp, hpc⟩
  | @subscriber p o _ _ _ hp ha _ hadv _ _ =>
    have haw := World.awaits_subscriber env hp
    cases hfrom : p.subscriber with
    | delivering message =>
      rw [hfrom] at hadv haw
      cases hadv with
      | @returned _ _ _ c _ socket hn hx =>
        cases hn
        obtain ⟨-, hsocket⟩ := Shared.exec_getSocket (c := c) hx
        cases socket with
        | none => cases hpc
        | some m =>
          obtain ⟨-, rfl, rfl⟩ := SubscriberPc.sending.inj hpc
          exact .inr ⟨message, c, ha, haw, hsocket.symm, rfl⟩
      | raised hn _ | applied hn _ _ =>
        cases hn
        cases hpc
    | listening | sending _ _ _ | dropping _ _ =>
      rw [hfrom] at hadv
      cases hadv with
      | returned hn _ | raised hn _ | applied hn _ _ =>
        cases hn
        cases hpc
    | dead =>
      rw [hfrom] at hadv
      cases hadv with
      | returned hn _ | raised hn _ | applied hn _ _ => cases hn

end RealtimeNotify.App
