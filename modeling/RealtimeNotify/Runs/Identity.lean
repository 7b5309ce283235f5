import RealtimeNotify.Runs.Delivery

/-!
# One user, two texts

A session names its user by the subject of its token as it was written, a
request by the UUID of its body as `str` prints it. Both texts go into registry
keys and into the connection map; they are the same exactly when the subject is
canonical.
-/

namespace RealtimeNotify.App

open RealtimeNotify.Lib RealtimeNotify.Python

variable {env : Env} {w w' : World} {a : Action}

/-! ## Operations that name a user -/

/-- The operations on a registry entry or a connection map that open a session
or route a notification, with the user they name. -/
inductive Op.Names : Op → String → Prop where
  | register {u i ttl} : Names (.redis (InstanceRegistry.register u i ttl)) u
  | add {i u n} : Names (.add i u n) u
  | lookup {u} : Names (.redis (InstanceRegistry.lookup u)) u
  | publish {i u notification} : Names (.publish i u notification) u

/-- A session names what its ticket redeemed to, a request the UUID of its body. -/
def Identified (w : World) (u : String) : TaskId → Prop
  | .session n => RedeemedAs w.log n u
  | .request m => ∃ r, w.requests m = some r ∧ u = r.body.userId.str
  | _ => True

theorem World.identified (h : Routed w) {id : TaskId} {op : Op} {u : String}
    (ha : w.awaits env id = some op) (hop : op.Names u) : Identified w u id := by
  cases hop with
  | register =>
    cases World.registryCaller ha (InstanceRegistry.register_key ..) with
    | register hs hpc => exact h.user _ _ u hs (by rw [hpc]; rfl)
  | add =>
    obtain ⟨s, rfl, hs, -, hpc⟩ := World.addCaller ha
    exact h.user _ s u hs (by rw [hpc]; rfl)
  | lookup =>
    cases World.registryCaller ha (InstanceRegistry.lookup_key ..) with
    | lookup hr _ hu => exact ⟨_, hr, hu.symm⟩
  | publish =>
    cases World.creationCaller ha rfl with
    | publish hr _ => exact ⟨_, hr, rfl⟩

theorem Identified.step (hstep : Stepped env w a w') {u : String} {id : TaskId}
    (h : Identified w u id) : Identified w' u id := by
  cases id with
  | session n => exact RedeemedAs.mono h hstep.log_subset
  | request m =>
    obtain ⟨r, hr, rfl⟩ := h
    obtain ⟨r', hr', hbody⟩ := hstep.request_next hr
    exact ⟨r', hr', by rw [hbody]⟩
  | _ => trivial

/-- In every run, whoever names a user names it so. -/
theorem identified_of_reachable (h : Reachable env w) :
    ∀ e ∈ w.log, ∀ op u, e.what.effect = some op → op.Names u → Identified w u e.task := by
  refine h.invariant (I := fun w => ∀ e ∈ w.log, ∀ op u, e.what.effect = some op →
    op.Names u → Identified w u e.task) ?_ ?_
  · simp [platform, World.empty]
  · intro w w' a hreach _ ih hstep e he op u heff hop
    have hstepped := World.stepped hstep
    refine Identified.step hstepped ?_
    rcases hstepped.effect_cases he heff with he | ha
    · exact ih e he op u heff hop
    · exact World.identified (Routed.of_reachable hreach) ha hop

/-! ## The two paths -/

/-- The registry key that session `n` wrote. -/
def WroteEntry (w : World) (n : Nat) (key : String) : Prop :=
  ∃ e ∈ w.log, e.task = .session n ∧ ∃ u i ttl,
    e.what.effect = some (.redis (InstanceRegistry.register u i ttl)) ∧
      key = (InstanceRegistry.register u i ttl).key

/-- The key of the connection map that session `n` added. -/
def AddedKey (w : World) (n : Nat) (key : String) : Prop :=
  ∃ e ∈ w.log, e.task = .session n ∧ ∃ i m, e.what.effect = some (.add i key m)

/-- The task is a request to notify `id`. -/
def TaskId.notifies (w : World) (id : UUID) (task : TaskId) : Prop :=
  ∃ m r, task = .request m ∧ w.requests m = some r ∧ r.body.userId = id

/-- The registry key that a request to notify `id` looked up. -/
def LookedUp (w : World) (id : UUID) (key : String) : Prop :=
  ∃ e ∈ w.log, e.task.notifies w id ∧ ∃ u,
    e.what.effect = some (.redis (InstanceRegistry.lookup u)) ∧
      key = (InstanceRegistry.lookup u).key

/-- A request to notify `id` published the message. -/
def PublishedFor (w : World) (id : UUID) (message : PubSubMessage) : Prop :=
  ∃ e ∈ w.log, e.task.notifies w id ∧ ∃ i,
    e.what.effect = some (.publish i message.userId message.notification)

/-- The key of the connection map that a delivery handler looks up for a message
published by a request to notify `id`. -/
def DeliveryKey (env : Env) (w : World) (id : UUID) (key : String) : Prop :=
  ∃ i p message, w.processes i = some p ∧ p.subscriber = .delivering message ∧
    PublishedFor w id message ∧ w.awaits env (.subscriber i) = some (.getSocket i key)

/-- For a subject `s` of a session and a request to notify the same UUID: the
registry key written is the one looked up, and the key of the connection map
added is the one the delivery handler looks up, iff `s` is canonical. -/
theorem keys_agree_iff_canonical (h : Reach (platform env) (fun w a => freshToken w a) w)
    {n : Nat} {s : String} (hs : SubjectOf w n s) {id : UUID} (hid : UUID.ofString s = some id) :
    (∀ key key', WroteEntry w n key → LookedUp w id key' → (key = key' ↔ IsCanonical s)) ∧
    ∀ key key', AddedKey w n key → DeliveryKey env w id key' → (key = key' ↔ IsCanonical s) := by
  have hreach : Reachable env w := h.mono fun _ _ _ => trivial
  have hnames := identified_of_reachable hreach
  have hsession : ∀ {u}, RedeemedAs w.log n u → u = s := fun hu =>
    (hu.eq_subject (TicketBooks.of_reach h) (OneTicket.of_reachable hreach) hs).symm
  have hrequest : ∀ {task u}, TaskId.notifies w id task → Identified w u task → u = id.str := by
    rintro _ u ⟨m, r, rfl, hr, rfl⟩ ⟨r', hr', rfl⟩
    obtain rfl := Option.some.inj (hr.symm.trans hr')
    rfl
  have hiff : s = id.str ↔ IsCanonical s := eq_comm.trans (UUID.str_eq_iff hid)
  constructor
  · rintro _ _ ⟨e, he, htask, u, i, ttl, heff, rfl⟩ ⟨e', he', htask', u', heff', rfl⟩
    have hu := hnames e he _ u heff .register
    rw [htask] at hu
    obtain rfl := hsession hu
    obtain rfl := hrequest htask' (hnames e' he' _ u' heff' .lookup)
    rw [InstanceRegistry.register_key, InstanceRegistry.lookup_key, registryKey_inj, hiff]
  · rintro u _ ⟨e, he, htask, i, m, heff⟩
      ⟨j, p, message, hp, hpc, ⟨e', he', htask', i', heff'⟩, hget⟩
    have hu := hnames e he _ u heff .add
    rw [htask] at hu
    obtain rfl := hsession hu
    have hmessage := hrequest htask' (hnames e' he' _ _ heff' .publish)
    rw [World.awaits_subscriber env hp, hpc] at hget
    obtain ⟨-, rfl⟩ := by simpa [SubscriberPc.next, Next.op?] using hget
    rw [hmessage, hiff]

/-- A message for the connected user is in the hands of the delivery handler. -/
theorem keys_agree_iff_canonical_live : ∃ w,
    (platform plainEnv).run .empty (raceRun ++ [.ok (.subscriber "a")]) = some w ∧
    (WroteEntry w 0 (registryKey someUser) ∧
      LookedUp w someBody.userId (registryKey someBody.userId.str) ∧
      (registryKey someUser = registryKey someBody.userId.str ↔ IsCanonical someUser)) ∧
    AddedKey w 0 someUser ∧ DeliveryKey plainEnv w someBody.userId someBody.userId.str ∧
    (someUser = someBody.userId.str ↔ IsCanonical someUser) := by
  have hmeets : (platform plainEnv).Meets (fun w a => freshToken w a) .empty
      (raceRun ++ [.ok (.subscriber "a")]) := by decide
  obtain ⟨w, hrun, hsubject, hwrote, hlooked, hadded, hdelivery⟩ : ∃ w,
      (platform plainEnv).run .empty (raceRun ++ [.ok (.subscriber "a")]) = some w ∧
      SubjectOf w 0 someUser ∧ WroteEntry w 0 (registryKey someUser) ∧
      LookedUp w someBody.userId (registryKey someBody.userId.str) ∧ AddedKey w 0 someUser ∧
      DeliveryKey plainEnv w someBody.userId someBody.userId.str := by
    refine ⟨_, rfl, ?_, ?_, ?_, ?_, ?_⟩
    · exact ⟨_, List.mem_of_getElem? (i := 20) rfl, "t0", _, rfl, rfl, 0, _, rfl, rfl, rfl⟩
    · exact ⟨_, List.mem_of_getElem? (i := 17) rfl, rfl, _, _, _, rfl, rfl⟩
    · exact ⟨_, List.mem_of_getElem? (i := 5) rfl, ⟨0, _, rfl, rfl, rfl⟩, _, rfl, rfl⟩
    · exact ⟨_, List.mem_of_getElem? (i := 18) rfl, rfl, _, _, rfl⟩
    · exact ⟨"a", _, _, rfl, rfl, ⟨_, List.mem_of_getElem? (i := 3) rfl,
        ⟨0, _, rfl, rfl, rfl⟩, _, rfl⟩, rfl⟩
  have hid : UUID.ofString someUser = some someBody.userId := by decide
  obtain ⟨hregistry, hmap⟩ :=
    keys_agree_iff_canonical (.of_run .init hmeets hrun) hsubject hid
  exact ⟨w, hrun, ⟨hwrote, hlooked, hregistry _ _ hwrote hlooked⟩, hadded, hdelivery,
    hmap _ _ hadded hdelivery⟩

/-- The UUID of the body, without hyphens. -/
def bareSubject : String := "12345678123456781234567812345678"

def bareRun : List Action :=
  Action.startup "a" ++ Action.grant 0 "a" bareSubject "t0" ++
    Action.openSession 0 "a" "c0" "t0" ++ Action.submit 0 "a" someBody ++
    .insert 0 newYear :: List.replicate 2 (.ok (.request 0))

/-- The session writes an entry that the request does not find. -/
theorem keys_agree_iff_canonical_bare : ∃ w, Reachable plainEnv w ∧ SubjectOf w 0 bareSubject ∧
    UUID.ofString bareSubject = some someBody.userId ∧
    WroteEntry w 0 (registryKey bareSubject) ∧
    LookedUp w someBody.userId (registryKey someBody.userId.str) ∧
    registryKey bareSubject ≠ registryKey someBody.userId.str := by
  obtain ⟨w, hrun, hsubject, hwrote, hlooked⟩ : ∃ w,
      (platform plainEnv).run .empty bareRun = some w ∧ SubjectOf w 0 bareSubject ∧
      WroteEntry w 0 (registryKey bareSubject) ∧
      LookedUp w someBody.userId (registryKey someBody.userId.str) := by
    refine ⟨_, rfl, ?_, ?_, ?_⟩
    · exact ⟨_, List.mem_of_getElem? (i := 12) rfl, "t0", _, rfl, rfl, 0, _, rfl, rfl, rfl⟩
    · exact ⟨_, List.mem_of_getElem? (i := 9) rfl, rfl, _, _, _, rfl, rfl⟩
    · exact ⟨_, List.mem_of_getElem? (i := 0) rfl, ⟨0, _, rfl, rfl, rfl⟩, _, rfl, rfl⟩
  exact ⟨w, .of_run hrun, hsubject, by decide, hwrote, hlooked, by decide⟩

end RealtimeNotify.App
