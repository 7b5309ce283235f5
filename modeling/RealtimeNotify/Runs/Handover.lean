import RealtimeNotify.Runs.Duplicates
import RealtimeNotify.Runs.SingleSession

/-!
# From the insertion to the socket

A notification inserted while its user has a registered session is with its
request, then on the channel of the instance of the session, then in the hand of
its subscriber, then sent. In a steady run it goes from one to the next, unless
its request ends between the insertion and the publication.
-/

namespace RealtimeNotify.App

open RealtimeNotify.Lib RealtimeNotify.Python

/-! ## Where a notification can be -/

/-- Past the insertion and on the way to a publication on `i`. -/
def CreatePc.headsFor (i : String) : CreatePc → Bool
  | markSeen row => row.isSome
  | lookup _ => true
  | isAlive _ owner | publish _ owner => owner = i
  | _ => false

def PubSubMessage.isFor (id k : UUID) (message : PubSubMessage) : Bool :=
  message.userId = id.str && message.notification.isFor k

/-- The notification `k` of the user `id` is in hand, for socket `n` once that
is known. -/
def SubscriberPc.carries (id k : UUID) (n : Nat) : SubscriberPc → Bool
  | delivering message => message.isFor id k
  | sending _ m (.notification live) => m = n && live.isFor k
  | _ => false

/-- On the way to socket `n` of instance `i`, or there. -/
inductive OnTheWay (id k : UUID) (n : Nat) (i : String) (w : World) : Prop where
  | request {m r} : w.requests m = some r → r.body.notificationId = k → r.body.userId = id →
      r.pc.headsFor i = true → OnTheWay id k n i w
  | queued {queue message} : w.shared.channels (instanceChannel i) = some queue →
      message ∈ queue → message.isFor id k = true → OnTheWay id k n i w
  | held {p} : w.processes i = some p → p.subscriber.carries id k n = true →
      OnTheWay id k n i w
  | sent : w.log.any (·.delivers n k) = true → OnTheWay id k n i w

/-- The outcome ends a request between its insertion and its publication;
`stored` says that an insertion at this point is a no-op. -/
def CreatePc.cut (stored : Bool) : CreatePc → Outcome Choice → Bool
  | _, .ok _ => false
  | create, .failApplied _ => !stored
  | publish _ _, .failApplied _ => false
  | pc, _ => pc.unpublished

/-- The action ends a request for `k` between its insertion and its publication. -/
def cutsOff (k : UUID) (w : World) : Action → Prop
  | .task (.request m) o => ∃ r, w.requests m = some r ∧ r.body.notificationId = k ∧
      r.pc.cut (k ∈ w.shared.db.ids) o = true
  | .crash i => ∃ m r, w.requests m = some r ∧ r.instanceId = i ∧ r.body.notificationId = k ∧
      r.pc.unpublished = true
  | _ => False

variable {env : Env} {w w' : World} {a : Action} {id k : UUID} {n : Nat} {i : String}

/-! ## The request -/

/-- What the handover rests on: the session of the user is registered on `i`,
where messages are listened to. -/
structure Awaited (id : UUID) (n : Nat) (i : String) (w : World) : Prop where
  up : Up w
  serves : w.serves i = true
  entry : w.shared.redis.get w.shared.now (registryKey id.str) = some (.text i)
  socket : (w.shared.connections i).get id.str = some n

theorem Awaited.of_single (hup : Up w) (h : Single id.str w) {s : Session}
    (hs : w.sessions n = some s) (hreg : s.pc.registered? = some id.str) :
    Awaited id n s.instanceId w where
  up := hup
  serves := hup.session n s hs fun hended => by
    simp [hended, GatewayPc.registered?, GatewayPc.connected?] at hreg
  entry := h.entry n s hs hreg
  socket := h.socket n s hs (GatewayPc.connected_of_registered hreg)

theorem Awaited.channel (h : Awaited id n i w) : w.shared.channels (instanceChannel i) ≠ none := by
  obtain ⟨p, hp, hserving⟩ := World.serves_iff.mp h.serves
  exact h.up.channel i p hp (by simp [hserving])

theorem Shared.mem_publish {s : Shared} (message : PubSubMessage)
    (h : s.channels (instanceChannel i) ≠ none) :
    ∃ queue, (s.publish i message).channels (instanceChannel i) = some queue ∧
      message ∈ queue := by
  obtain ⟨queue, hq⟩ := Option.ne_none_iff_exists'.mp h
  refine ⟨queue ++ [message], ?_, by simp⟩
  simp [publish, hq, setChannel]

theorem lookup_reply {s sh : Shared} {u : String} {c : Choice} {reply : Option RedisValue}
    (h : s.exec (.redis (InstanceRegistry.lookup u)) c = some (sh, reply)) :
    reply = s.redis.get s.now (registryKey u) := by
  obtain ⟨redis, hcmd, -⟩ := Shared.exec_redis h
  obtain ⟨-, rfl⟩ := by simpa [RedisCmd.exec, InstanceRegistry.lookup] using hcmd
  rfl

theorem isAlive_reply {s sh : Shared} {c : Choice} {reply : Bool}
    (h : s.exec (.redis (InstanceRegistry.isAlive i)) c = some (sh, reply)) :
    reply = (s.redis.get s.now (livenessKey i)).isSome := by
  obtain ⟨redis, hcmd, -⟩ := Shared.exec_redis h
  obtain ⟨-, rfl⟩ := by simpa [RedisCmd.exec, InstanceRegistry.isAlive] using hcmd
  rfl

theorem CreatePc.unpublished_of_heads {pc : CreatePc} (h : pc.headsFor i = true) :
    pc.unpublished = true := by
  cases pc <;> simp_all [headsFor, unpublished]

/-- A request on its way takes its next step to the channel. -/
theorem Awaited.request_moved (h : Awaited id n i w) (hb : Books w) {m : Nat} {r : PostRequest}
    {o : Outcome Choice} {sh : Shared} {pc : CreatePc} {e : Happened Op Op.Reply}
    (hr : w.requests m = some r) (hk : r.body.notificationId = k) (hid : r.body.userId = id)
    (hheads : r.pc.headsFor i = true)
    (hadv : Advances semantics w.shared (r.pc.next env r.client r.body) o sh pc e) :
    OnTheWay id k n i { w.setRequest m { r with pc } with
      shared := sh, log := ⟨w.shared.now, .request m, e⟩ :: w.log } ∨
    r.pc.cut (k ∈ w.shared.db.ids) o = true := by
  have hpublished : ∀ {row owner c}, r.pc = .publish row owner →
      w.shared.exec (.publish owner r.body.userId.str row.envelope.live) c = some (sh, ()) →
      OnTheWay id k n i { w.setRequest m { r with pc } with
        shared := sh, log := ⟨w.shared.now, .request m, e⟩ :: w.log } := by
    intro row owner c hpc hx
    obtain rfl : owner = i := by simpa [hpc, CreatePc.headsFor] using hheads
    obtain rfl := by simpa [Shared.exec] using hx
    obtain ⟨-, hrow, -⟩ := hb.row m r row hr (by rw [hpc]; rfl)
    obtain ⟨queue, hq, hmem⟩ := Shared.mem_publish
      ⟨r.body.userId.str, w.shared.now, row.envelope.live⟩ h.channel
    refine .queued hq hmem ?_
    simp [PubSubMessage.isFor, LiveNotification.isFor, NotificationEnvelope.live, hid, hrow, hk]
  cases hpc : r.pc with
  | markSeen row =>
    rw [hpc] at hadv hheads
    obtain ⟨row, rfl⟩ := Option.isSome_iff_exists.mp hheads
    cases hadv with
    | returned hn _ =>
      cases hn
      exact .inl (.request (Function.update_self ..) hk hid rfl)
    | raised hn _ | applied hn _ _ => exact .inr rfl
  | lookup row =>
    rw [hpc] at hadv
    cases hadv with
    | @returned _ _ _ c _ reply hn hx =>
      cases hn
      obtain rfl := lookup_reply (c := c) hx
      rw [hid, h.entry]
      refine .inl (.request (Function.update_self ..) hk hid ?_)
      simp [CreatePc.headsFor, RedisValue.decode]
    | raised hn _ | applied hn _ _ => exact .inr rfl
  | isAlive row owner =>
    rw [hpc] at hadv hheads
    obtain rfl : owner = i := by simpa [CreatePc.headsFor] using hheads
    cases hadv with
    | @returned _ _ _ c _ reply hn hx =>
      cases hn
      obtain rfl := isAlive_reply (c := c) hx
      rw [h.up.alive owner h.serves]
      exact .inl (.request (Function.update_self ..) hk hid (by simp [CreatePc.headsFor]))
    | raised hn _ | applied hn _ _ => exact .inr rfl
  | publish row owner =>
    rw [hpc] at hadv
    cases hadv with
    | @returned _ _ _ c _ _ hn hx =>
      cases hn
      exact .inl (hpublished (c := c) hpc hx)
    | raised hn _ => exact .inr rfl
    | @applied _ _ _ c _ _ hn _ hx =>
      -- the request raises, but the message is on the channel
      cases hn
      exact .inl (hpublished (c := c) hpc hx)
  | allow | hasSeen | create | markDelivered _ | returned _ | rejected _ | raised | killed =>
    rw [hpc] at hheads
    cases hheads

theorem OnTheWay.request_step (h : Awaited id n i w) (hb : Books w) (hstep : Stepped env w a w')
    {m : Nat} {r : PostRequest} (hr : w.requests m = some r) (hk : r.body.notificationId = k)
    (hid : r.body.userId = id) (hheads : r.pc.headsFor i = true) :
    OnTheWay id k n i w' ∨ cutsOff k w a := by
  have hsame : w'.requests m = some r → OnTheWay id k n i w' ∨ cutsOff k w a := fun hr' =>
    .inl (.request hr' hk hid hheads)
  cases hstep with
  | tick | expireDedup | boot _ | connect _ _ | issue _ _ => exact hsame hr
  | session _ _ | ticketRequest _ _ | subscriber _ _ _ | lifespan _ _ | liveness _ _ _ =>
    exact hsame hr
  | @crash j _ =>
    by_cases hj : r.instanceId = j
    · exact .inr ⟨m, r, hr, hj, hk, CreatePc.unpublished_of_heads hheads⟩
    · exact hsame (by simp [World.crash, World.killAll, hr, hj])
  | @post l _ _ _ _ hl =>
    have hml : m ≠ l := by
      rintro rfl
      simp [hl] at hr
    exact hsame (by simpa [World.setRequest, hml] using hr)
  | @request l r' o sh pc e hr' hadv =>
    by_cases hml : m = l
    · subst hml
      obtain rfl := Option.some.inj (hr.symm.trans hr')
      exact (h.request_moved hb hr hk hid hheads hadv).imp_right fun hcut => ⟨r, hr, hk, hcut⟩
    · exact hsame (by simpa [World.setRequest, hml] using hr)

/-! ## The channel and the subscriber -/

/-- The subscriber takes the next message, finds the socket, and sends. -/
theorem Awaited.subscriber_moved (h : Awaited id n i w) {p : Process} {c : Choice} {sh : Shared}
    {pc : SubscriberPc} {e : Happened Op Op.Reply} (hp : w.processes i = some p)
    (hadv : Advances semantics w.shared (p.subscriber.next i) (.ok c) sh pc e)
    (hway : (∃ queue message, w.shared.channels (instanceChannel i) = some queue ∧
      message ∈ queue ∧ message.isFor id k = true) ∨ p.subscriber.carries id k n = true) :
    (∃ queue message, sh.channels (instanceChannel i) = some queue ∧ message ∈ queue ∧
      message.isFor id k = true) ∨ pc.carries id k n = true ∨
    Event.delivers n k ⟨w.shared.now, .subscriber i, e⟩ = true := by
  have hup := h.up.subscriber i p hp
  obtain ⟨op, f, r, reply, hn, hx, rfl, rfl⟩ := advances_ok hadv
  cases hpc : p.subscriber with
  | listening =>
    rw [hpc] at hn hway
    cases hn
    obtain ⟨tail, hq, rfl⟩ := Shared.exec_nextMessage hx
    obtain ⟨queue, message, hqueue, hmem, hfor⟩ | hcarries := hway
    · obtain rfl := Option.some.inj (hq.symm.trans hqueue)
      rcases List.mem_cons.mp hmem with rfl | hmem
      · exact .inr (.inl hfor)
      · exact .inl ⟨tail, message, by simp [Shared.setChannel], hmem, hfor⟩
    · cases hcarries
  | delivering message =>
    rw [hpc] at hn hway
    cases hn
    obtain ⟨rfl, rfl⟩ := Shared.exec_getSocket hx
    refine hway.imp_right fun hcarries => .inl ?_
    obtain ⟨huser, hfor⟩ : message.userId = id.str ∧ message.notification.isFor k = true := by
      simpa [SubscriberPc.carries, PubSubMessage.isFor] using hcarries
    simp [huser, h.socket, SubscriberPc.carries, hfor]
  | sending u m frame =>
    rw [hpc] at hn hway
    cases hn
    obtain rfl : w.shared = sh := by simpa [Shared.exec] using hx
    refine hway.imp_right fun hcarries => .inr ?_
    cases frame with
    | notification live =>
      obtain ⟨rfl, hfor⟩ : m = n ∧ live.isFor k = true := by
        simpa [SubscriberPc.carries] using hcarries
      simp [Event.delivers, Event.frameOn?, Happened.effect, hfor]
    | _ => cases hcarries
  | dropping _ _ | dead =>
    rw [hpc] at hup
    cases hup

/-- Only the subscriber of `i` takes a message from the channel. -/
theorem Awaited.queue_kept (h : Awaited id n i w) (hstep : Stepped env w a w')
    (hcrash : a ≠ .crash i) (ha : ∀ o, a ≠ .task (.subscriber i) o) {queue : List PubSubMessage}
    {message : PubSubMessage} (hq : w.shared.channels (instanceChannel i) = some queue)
    (hmem : message ∈ queue) :
    ∃ queue', w'.shared.channels (instanceChannel i) = some queue' ∧ message ∈ queue' := by
  have hother : ∀ {j v}, i ≠ j →
      ∃ queue', (w.shared.setChannel j v).channels (instanceChannel i) = some queue' ∧
        message ∈ queue' := by
    intro j v hj
    exact ⟨queue, by simpa [Shared.setChannel, hj] using hq, hmem⟩
  have heffect : ∀ {task op c sh} {reply : op.Reply}, task ≠ .subscriber i →
      w.awaits env task = some op → w.shared.exec op c = some (sh, reply) →
      ∃ queue', sh.channels (instanceChannel i) = some queue' ∧ message ∈ queue' := by
    intro task op c sh reply htask haw hx
    cases Shared.exec_channels hx with
    | kept hsame => exact ⟨queue, by rw [hsame, hq], hmem⟩
    | @published j u x hpub =>
      rw [hpub]
      by_cases hj : i = j
      · subst hj
        refine ⟨queue ++ [⟨u, w.shared.now, x⟩], ?_, List.mem_append_left _ hmem⟩
        simp [Shared.publish, hq, Shared.setChannel]
      · unfold Shared.publish
        split
        · exact hother hj
        · exact ⟨queue, hq, hmem⟩
    | @subscribed j hsub =>
      cases World.localCaller haw rfl with
      | subscribe hp hpc =>
        rw [hsub]
        refine hother fun hj => ?_
        obtain ⟨p, hp', hserving⟩ := World.serves_iff.mp h.serves
        obtain rfl := Option.some.inj (hp.symm.trans (hj ▸ hp'))
        simp [hpc] at hserving
    | @taken j _ _ _ htake =>
      cases World.localCaller haw rfl with
      | listen _ _ =>
        rw [htake]
        exact hother fun hj => htask (by rw [hj])
    | unsubscribed _ =>
      cases World.localCaller haw rfl with
      | unsubscribe hp hpc =>
        have hlife := h.up.lifespan _ _ hp
        rw [hpc] at hlife
        cases hlife
  obtain ⟨sh, log, hsh, -, ht⟩ := hstep.touched
  rw [hsh]
  cases ht with
  | tick | expireDedup | started _ | raised _ _ => exact ⟨queue, hq, hmem⟩
  | @crash j =>
    have hj : i ≠ j := by
      rintro rfl
      exact hcrash rfl
    exact hother hj
  | returned haw hx => exact heffect (fun htask => ha _ (by rw [htask])) haw hx
  | applied haw _ hx => exact heffect (fun htask => ha _ (by rw [htask])) haw hx

theorem OnTheWay.subscriber_step (h : Awaited id n i w) (hstep : Stepped env w a w')
    (hg : steady w a) {o : Outcome Choice} (ha : a = .task (.subscriber i) o)
    (hway : (∃ queue message, w.shared.channels (instanceChannel i) = some queue ∧
      message ∈ queue ∧ message.isFor id k = true) ∨
      ∃ p, w.processes i = some p ∧ p.subscriber.carries id k n = true) :
    OnTheWay id k n i w' := by
  subst ha
  obtain ⟨c, rfl⟩ := smooth_subscriber hg.1
  cases hstep with
  | @subscriber _ p _ sh pc e hp _ hadv =>
    have hway : (∃ queue message, w.shared.channels (instanceChannel i) = some queue ∧
        message ∈ queue ∧ message.isFor id k = true) ∨ p.subscriber.carries id k n = true := by
      refine hway.imp_right fun ⟨p', hp', hcarries⟩ => ?_
      obtain rfl := Option.some.inj (hp.symm.trans hp')
      exact hcarries
    rcases h.subscriber_moved hp hadv hway with ⟨queue, message, hq, hmem, hfor⟩ | hheld | hsent
    · exact .queued hq hmem hfor
    · exact .held (Function.update_self ..) hheld
    · exact .sent (by simp [hsent])

/-- No step of a steady run loses a notification, unless it ends its request. -/
theorem OnTheWay.step (hway : OnTheWay id k n i w) (h : Awaited id n i w) (hb : Books w)
    (hstep : Stepped env w a w') (hg : steady w a) (hcrash : a ≠ .crash i) :
    OnTheWay id k n i w' ∨ cutsOff k w a := by
  cases hway with
  | request hr hk hid hheads => exact request_step h hb hstep hr hk hid hheads
  | @queued queue message hq hmem hfor =>
    left
    by_cases ha : ∃ o, a = .task (.subscriber i) o
    · obtain ⟨o, ha⟩ := ha
      exact subscriber_step h hstep hg ha (.inl ⟨queue, message, hq, hmem, hfor⟩)
    · obtain ⟨queue', hq', hmem'⟩ := h.queue_kept hstep hcrash (not_exists.mp ha) hq hmem
      exact .queued hq' hmem' hfor
  | @held p hp hcarries =>
    left
    rcases hstep.process_next hp with ha | ⟨p', hp', -, hsame | ⟨o, ha⟩⟩
    · exact absurd ha hcrash
    · exact .held hp' (by rwa [hsame])
    · exact subscriber_step h hstep hg ha (.inr ⟨p, hp, hcarries⟩)
  | sent hsent =>
    obtain ⟨e, he, hd⟩ := List.any_eq_true.mp hsent
    exact .inl (.sent (List.any_eq_true.mpr ⟨e, hstep.log_subset he, hd⟩))

/-- No message is on the channel of `i` or in the hand of its subscriber. -/
def World.processed (w : World) (i : String) : Prop :=
  w.shared.channels (instanceChannel i) = some [] ∧
    ∃ p, w.processes i = some p ∧ p.subscriber = .listening

/-- What is on its way has arrived once the requests and the messages are done. -/
theorem OnTheWay.delivered (hway : OnTheWay id k n i w) (hdone : w.processed i)
    (hended : ∀ m r, w.requests m = some r → r.body.notificationId = k →
      r.pc.unpublished = false) : w.log.any (·.delivers n k) = true := by
  obtain ⟨hempty, p, hp, hlistening⟩ := hdone
  cases hway with
  | request hr hk _ hheads =>
    have hunpublished := CreatePc.unpublished_of_heads hheads
    rw [hended _ _ hr hk] at hunpublished
    cases hunpublished
  | queued hq hmem _ =>
    obtain rfl := Option.some.inj (hempty.symm.trans hq)
    cases hmem
  | held hp' hcarries =>
    obtain rfl := Option.some.inj (hp.symm.trans hp')
    rw [hlistening] at hcarries
    cases hcarries
  | sent hsent => exact hsent

end RealtimeNotify.App
