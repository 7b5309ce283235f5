import RealtimeNotify.App.MessageRouter

/-!
# `websocket_endpoint`

One point for each awaited call. An exception leaves the handler at once before
the `try` and goes to the `finally` block, the point `remove`, inside it. The
points of a user's session carry `u`, the user id the ticket redeemed to.
-/

namespace RealtimeNotify.App

open RealtimeNotify.Lib RealtimeNotify.Python

inductive GatewayPc where
  | redeem (ticket : String)
  | reject
  | accept (u : String)
  | add (u : String)
  | register (u : String)
  | markOnline (u : String)
  | onlineSeen (u : String)
  | backlogQuery (u : String) (id : UUID)
  | backlogSend (u : String) (rows : List Notification)
  | receive (u : String)
  | allow (u : String) (fields : Dict PyStr Json)
  | heartbeat (u : String)
  | heartbeatSeen (u : String)
  | refresh (u : String)
  | presence (u : String) (online : Bool)
  | presenceSeen (u : String)
  | readReceipt (u : String) (id notificationId : UUID)
  | respond (u : String) (frame : Frame)
  | remove (u : String)
  | unregister (u : String)
  | markOffline (u : String)
  | ended

namespace GatewayPc

/-- The local variable `user_id`, once it is bound. -/
def user? : GatewayPc → Option String
  | redeem _ | reject | ended => none
  | accept u | add u | register u | markOnline u | onlineSeen u | backlogQuery u _
  | backlogSend u _ | receive u | allow u _ | heartbeat u | heartbeatSeen u | refresh u
  | presence u _ | presenceSeen u | readReceipt u _ _ | respond u _ | remove u | unregister u
  | markOffline u => some u

/-- Inside `while True`. -/
def inLoop : GatewayPc → Bool
  | receive _ | allow _ _ | heartbeat _ | heartbeatSeen _ | refresh _ | presence _ _
  | presenceSeen _ | readReceipt _ _ _ | respond _ _ => true
  | _ => false

/-- Past the receive loop, or never to enter it. -/
def leaving : GatewayPc → Bool
  | reject | remove _ | unregister _ | markOffline _ | ended => true
  | _ => false

/-- The user of a session that has executed `add` and not yet left for `finally`. -/
def connected? : GatewayPc → Option String
  | register u | markOnline u | onlineSeen u | backlogQuery u _ | backlogSend u _ | receive u
  | allow u _ | heartbeat u | heartbeatSeen u | refresh u | presence u _ | presenceSeen u
  | readReceipt u _ _ | respond u _ => some u
  | _ => none

/-- The user of a session that has executed `register` and not yet left. -/
def registered? : GatewayPc → Option String
  | register _ => none
  | pc => pc.connected?

/-- `await message_router.route(...)` once the limiter has answered. -/
def routed (env : Env) (u : String) (fields : Dict PyStr Json) : GatewayPc :=
  match MessageRouter.dispatch env fields with
  | .heartbeat => heartbeat u
  | .presenceUpdate online => presence u online
  | .readReceipt n =>
      match UUID.ofString u with
      | some id => readReceipt u id n
      | none => remove u
  | .reply frame => respond u frame

/-- The handler of session `n` on instance `i` with connection id `c`. -/
def next (env : Env) (n : Nat) (i c : String) : GatewayPc → Step GatewayPc
  | redeem ticket => .call (.redis (WSTicketAuth.redeemTicket ticket))
      (fun (v : Option RedisValue) => match v with | some v => accept v.decode | none => reject)
      ended
  | reject => .call (.close n 1008 "Invalid or expired ticket") (fun _ => ended) ended
  | accept u => .call (.accept n) (fun _ => add u) ended
  | add u => .call (.add i u n) (fun _ => register u) ended
  | register u => .call (.redis (InstanceRegistry.register u i env.presenceTtlSeconds))
      (fun _ => markOnline u) ended
  | markOnline u => .call (.redis (PresenceStore.setOnline u env.presenceTtlSeconds))
      (fun _ => onlineSeen u) ended
  | onlineSeen u => .call (.redis (PresenceStore.touchLastSeen u))
      (fun _ => match UUID.ofString u with | some id => backlogQuery u id | none => remove u)
      ended
  | backlogQuery u id => .call (.getUnreadBacklog id env.backlogLimit)
      (fun rows => backlogSend u rows) (remove u)
  | backlogSend u rows => .call (.send n (.backlog (rows.map (·.envelope))))
      (fun _ => receive u) (remove u)
  | receive u => .call (.receive n)
      -- `raw_message.get` is an `AttributeError` on anything but an object
      (fun raw => match raw with | .obj fields => allow u fields | _ => remove u) (remove u)
  | allow u fields => .call
      (.redis (RateLimiter.allow c env.rateLimitMessages env.rateLimitWindowSeconds))
      (fun (ok : Bool) => if ok then routed env u fields else respond u RateLimitedMessage)
      (remove u)
  | heartbeat u => .call (.redis (PresenceStore.refresh u env.presenceTtlSeconds))
      (fun _ => heartbeatSeen u) (remove u)
  | heartbeatSeen u => .call (.redis (PresenceStore.touchLastSeen u))
      (fun _ => refresh u) (remove u)
  | refresh u => .call (.redis (InstanceRegistry.refresh u env.presenceTtlSeconds))
      (fun _ => receive u) (remove u)
  | presence u online => .call
      (.redis (if online then PresenceStore.setOnline u env.presenceTtlSeconds
        else PresenceStore.setAway u env.presenceTtlSeconds))
      (fun _ => presenceSeen u) (remove u)
  | presenceSeen u => .call (.redis (PresenceStore.touchLastSeen u))
      (fun _ => receive u) (remove u)
  | readReceipt u id notificationId => .call (.markRead notificationId id)
      (fun _ => receive u) (remove u)
  | respond u frame => .call (.send n frame) (fun _ => receive u) (remove u)
  | remove u => .call (.remove i u) (fun _ => unregister u) ended
  | unregister u => .call (.redis (InstanceRegistry.unregister u)) (fun _ => markOffline u) ended
  | markOffline u => .call (.redis (PresenceStore.clear u)) (fun _ => ended) ended
  | ended => .done

/-! ## The course of a session -/

variable {env : Env} {n : Nat} {i c : String} {pc r : GatewayPc} {op : Op}
  {k : op.Reply → GatewayPc} {u v : String}

theorem not_leaving_of_inLoop (h : pc.inLoop = true) : pc.leaving = false := by
  cases pc <;> simp_all [inLoop, leaving]

theorem connected_of_registered (h : pc.registered? = some u) : pc.connected? = some u := by
  cases pc <;> simp_all [registered?, connected?]

theorem not_leaving_of_connected (h : pc.connected? = some u) : pc.leaving = false := by
  cases pc <;> simp_all [connected?, leaving]

theorem user_of_connected (h : pc.connected? = some u) : pc.user? = some u := by
  cases pc <;> simp_all [connected?, user?]

theorem routed_connected {fields : Dict PyStr Json}
    (h : (routed env u fields).connected? = some v) : v = u := by
  unfold routed at h
  split at h
  · simpa [connected?, eq_comm] using h
  · simpa [connected?, eq_comm] using h
  · split at h
    · simpa [connected?, eq_comm] using h
    · simp [connected?] at h
  · simpa [connected?, eq_comm] using h

theorem routed_next {fields : Dict PyStr Json} :
    (routed env u fields).connected? = some u ∨ (routed env u fields).leaving = true := by
  unfold routed
  split
  · exact .inl rfl
  · exact .inl rfl
  · split
    · exact .inl rfl
    · exact .inr rfl
  · exact .inl rfl

/-- A reply connects a session at `add` only, and else keeps the user. -/
theorem connected_resume (h : pc.next env n i c = .call op k r) {reply : op.Reply}
    (hv : (k reply).connected? = some v) : pc.connected? = some v ∨ pc = add v := by
  cases pc with
  | redeem ticket =>
    cases h
    cases reply <;> simp [connected?] at hv
  | add u =>
    cases h
    right
    simpa [connected?] using hv
  | onlineSeen u =>
    cases h
    left
    cases hu : UUID.ofString u <;> simp_all [connected?]
  | receive u =>
    cases h
    cases reply <;> simp_all [connected?]
  | allow u fields =>
    cases h
    left
    simp only at hv
    split at hv
    · exact congrArg some (routed_connected hv).symm
    · exact hv
  | ended => cases h
  | _ =>
    cases h
    simp_all [connected?]

theorem add_of_register (h : pc.next env n i c = .call op k r) {reply : op.Reply}
    (hk : k reply = register v) : pc = add v := by
  cases pc with
  | redeem ticket =>
    cases h
    cases reply <;> simp at hk
  | add u =>
    cases h
    simpa using hk
  | onlineSeen u =>
    cases h
    cases hu : UUID.ofString u <;> simp_all
  | receive u =>
    cases h
    cases reply <;> simp at hk
  | allow u fields =>
    cases h
    cases reply
    · simp at hk
    · exact absurd hk (by simp only [if_true, routed]; split <;> (try split) <;> simp)
  | ended => cases h
  | _ =>
    cases h
    simp at hk

theorem registered_resume (h : pc.next env n i c = .call op k r) {reply : op.Reply}
    (hv : (k reply).registered? = some v) : pc.registered? = some v ∨ pc = register v := by
  rcases connected_resume h (connected_of_registered hv) with hc | rfl
  · cases pc <;> simp_all [registered?, connected?]
  · cases h
    simp [registered?] at hv

/-- A connected session stays so with its user until it leaves. -/
theorem connected_next (h : pc.next env n i c = .call op k r) (hu : pc.connected? = some u)
    {reply : op.Reply} : (k reply).connected? = some u ∨ (k reply).leaving = true := by
  cases pc with
  | onlineSeen v =>
    cases h
    obtain rfl : v = u := by simpa [connected?] using hu
    cases hv : UUID.ofString v <;> simp [connected?, leaving]
  | receive v =>
    cases h
    cases reply <;> simp_all [connected?, leaving]
  | allow v fields =>
    cases h
    obtain rfl : v = u := by simpa [connected?] using hu
    cases reply
    · left
      rfl
    · exact routed_next
  | redeem _ | reject | accept _ | add _ | remove _ | unregister _ | markOffline _ | ended =>
    simp [connected?] at hu
  | _ =>
    cases h
    simp_all [connected?, leaving]

theorem registered_next (h : pc.next env n i c = .call op k r) (hu : pc.registered? = some u)
    {reply : op.Reply} : (k reply).registered? = some u ∨ (k reply).leaving = true := by
  refine (connected_next h (connected_of_registered hu)).imp_left fun hc => ?_
  cases hk : k reply with
  | register v =>
    obtain rfl := add_of_register h hk
    simp [registered?, connected?] at hu
  | _ => simp_all [registered?, connected?]

theorem leaving_next (h : pc.next env n i c = .call op k r) (hl : pc.leaving = true)
    {reply : op.Reply} : (k reply).leaving = true := by
  cases pc <;> cases h <;> simp_all [leaving]

/-- An exception makes it leave. -/
theorem leaving_raised (h : pc.next env n i c = .call op k r) : r.leaving = true := by
  cases pc <;> cases h <;> rfl

theorem user_routed {fields : Dict PyStr Json} : (routed env u fields).user? = some u := by
  unfold routed
  split
  · rfl
  · rfl
  · split <;> rfl
  · rfl

/-- The user of a session comes from its ticket and stays. -/
theorem user_resume (h : pc.next env n i c = .call op k r) {reply : op.Reply}
    (hv : (k reply).user? = some v) : pc.user? = some v ∨ ∃ ticket, pc = redeem ticket := by
  cases pc with
  | redeem ticket => exact .inr ⟨ticket, rfl⟩
  | onlineSeen u =>
    cases h
    left
    cases hu : UUID.ofString u <;> simp_all [user?]
  | receive u =>
    cases h
    cases reply <;> simp_all [user?]
  | allow u fields =>
    cases h
    left
    simp only at hv
    split at hv
    · exact user_routed.symm.trans hv
    · exact hv
  | ended => cases h
  | _ =>
    cases h
    simp_all [user?]

/-- A ticket is redeemed at the start only. -/
theorem not_redeem (h : pc.next env n i c = .call op k r) {ticket : String} :
    (∀ reply, k reply ≠ redeem ticket) ∧ r ≠ redeem ticket := by
  cases pc with
  | redeem t =>
    cases h
    exact ⟨fun reply => by cases reply <;> simp, by simp⟩
  | onlineSeen u =>
    cases h
    cases hu : UUID.ofString u <;> simp
  | receive u =>
    cases h
    exact ⟨fun reply => by cases reply <;> simp, by simp⟩
  | allow u fields =>
    cases h
    refine ⟨fun reply hk => ?_, by simp⟩
    have hu := congrArg user? hk
    cases reply
    · simp [user?] at hu
    · exact absurd (user_routed.symm.trans hu) (by simp [user?])
  | ended => cases h
  | _ =>
    cases h
    simp

theorem user_raised (h : pc.next env n i c = .call op k r) (hv : r.user? = some v) :
    pc.user? = some v := by
  cases pc <;> cases h <;> simp_all [user?]

end GatewayPc

end RealtimeNotify.App
