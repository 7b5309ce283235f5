import RealtimeNotify.App.PresenceManager
import RealtimeNotify.App.World
import RealtimeNotify.Python.JsonDecoder

/-!
# The receive loop, one frame at a time

A `MessageRouter` is what its constructor is given; the calls are awaited one after
the other, and nothing is known of what they do. `none` says that a call raises.
Nothing in the loop catches an exception, so a turn that raises ends the session.
-/

namespace RealtimeNotify.App

open RealtimeNotify.Lib RealtimeNotify.Python

/-- The limits of the interpreter. `strFits` says that `str(value)` stays within the
recursion limit. -/
structure Runtime where
  limits : Limits
  strFits : Json → Bool

/-- The collaborators of the router, and the clock of `datetime.now`. -/
structure MessageRouter (σ : Type) where
  now : σ → Nat
  handle : String → σ → Option σ
  markOnline : String → σ → Option σ
  markAway : String → σ → Option σ
  allow : String → σ → Option (σ × Bool)
  onReadReceipt : UUID → String → Nat → σ → Option σ

/-- `raw_message.get("type", "unknown")`. -/
def messageType (fields : Dict PyStr Json) : Json :=
  (fields.get (PyStr.ofString "type")).getD (.str (PyStr.ofString "unknown"))

namespace MessageRouter

variable {σ : Type}

/-- The call of a branch of `route`. -/
def perform (self : MessageRouter σ) (userId : String) (s : σ) : Route → Option σ
  | .heartbeat => self.handle userId s
  | .presenceUpdate true => self.markOnline userId s
  | .presenceUpdate false => self.markAway userId s
  | .readReceipt n => self.onReadReceipt n userId (self.now s) s
  | .reply _ => some s

/-- What a branch returns. -/
def response : Route → Option Frame
  | .heartbeat | .presenceUpdate _ | .readReceipt _ => none
  | .reply frame => some frame

/-- `route`, with the state it leaves and what it returns. -/
def route (self : MessageRouter σ) (env : Env) (rt : Runtime) (userId connectionId : String)
    (rawMessage : Json) (s : σ) : Option (σ × Option Frame) :=
  match rawMessage with
  | .obj fields =>
      -- the label of the counter is `str(message_type)`
      if rt.strFits (messageType fields) then
        (self.allow connectionId s).bind fun p =>
          if p.2 then
            (self.perform userId p.1 (dispatch env fields)).map fun s' =>
              (s', response (dispatch env fields))
          else some (p.1, some RateLimitedMessage)
      else none
  -- nothing else has a `get`
  | .null | .bool _ | .int _ | .float _ | .str _ | .arr _ => none

/-- `if response is not None: await websocket.send_json(response)`. -/
def sendResponse (send : Frame → σ → Option σ) : σ × Option Frame → Option (σ × Option Frame)
  | (s, none) => some (s, none)
  | (s, some frame) => (send frame s).map fun s' => (s', some frame)

/-- One turn of `while True`: `receive_json`, `route`, and `send_json` of what it
returns. -/
def turn (self : MessageRouter σ) (env : Env) (rt : Runtime) (send : Frame → σ → Option σ)
    (userId connectionId : String) (text : PyStr) (s : σ) : Option (σ × Option Frame) :=
  match decodeText rt.limits text with
  | .error _ => none
  | .ok rawMessage =>
      (self.route env rt userId connectionId rawMessage s).bind (sendResponse send)

end MessageRouter

/-! ## The messages of the schemas -/

/-- What a valid message asks for. -/
inductive Asks (env : Env) (fields : Dict PyStr Json) : Route → Prop where
  | heartbeat : messageType fields = .str (PyStr.ofString "heartbeat") → Asks env fields .heartbeat
  | presenceUpdate {online : Bool} :
      messageType fields = .str (PyStr.ofString "presence_update") →
      fields.get (PyStr.ofString "status")
        = some (.str (PyStr.ofString (if online then "online" else "away"))) →
      Asks env fields (.presenceUpdate online)
  | readReceipt {value : Json} {n : UUID} :
      messageType fields = .str (PyStr.ofString "read_receipt") →
      fields.get (PyStr.ofString "notification_id") = some value →
      env.validateUuid value = some n → Asks env fields (.readReceipt n)

variable {σ : Type} {self : MessageRouter σ} {env : Env} {rt : Runtime}
  {fields : Dict PyStr Json} {route : Route} {frame : Frame}

theorem validatePresenceUpdate_eq {online : Bool} :
    validatePresenceUpdate fields = some online ↔ fields.get (PyStr.ofString "status")
      = some (.str (PyStr.ofString (if online then "online" else "away"))) := by
  have hne : PyStr.ofString "away" ≠ PyStr.ofString "online" := by decide
  unfold validatePresenceUpdate
  split
  · rename_i s hs
    rw [hs]
    by_cases ho : s = PyStr.ofString "online"
    · cases online <;> simp [ho, hne.symm]
    · by_cases ha : s = PyStr.ofString "away"
      · cases online <;> simp [ha, hne]
      · cases online <;> simp [ho, ha]
  · rename_i hs
    constructor
    · intro h
      cases h
    · intro h
      exact absurd h (hs _)

theorem Asks.dispatch (h : Asks env fields route) : MessageRouter.dispatch env fields = route := by
  have hpresence : PyStr.ofString "presence_update" ≠ PyStr.ofString "heartbeat" := by decide
  have hreceipt : PyStr.ofString "read_receipt" ≠ PyStr.ofString "heartbeat" := by decide
  have hreceipt' : PyStr.ofString "read_receipt" ≠ PyStr.ofString "presence_update" := by decide
  unfold MessageRouter.dispatch
  cases h with
  | heartbeat ht =>
    rw [← messageType, ht]
    simp
  | presenceUpdate ht hs =>
    rw [← messageType, ht]
    simp [hpresence, validatePresenceUpdate_eq.mpr hs]
  | readReceipt ht hn hid =>
    rw [← messageType, ht]
    simp [hreceipt, hreceipt', validateReadReceipt, hn, hid]

/-- A message that asks for nothing gets an error. -/
theorem asks_or_reply : Asks env fields (MessageRouter.dispatch env fields) ∨
    ∃ frame, MessageRouter.dispatch env fields = .reply frame := by
  unfold MessageRouter.dispatch
  rw [← messageType]
  split
  · rename_i t ht
    split
    · rename_i hname
      exact .inl (.heartbeat (hname ▸ ht))
    · split
      · rename_i hname
        split
        · rename_i hs
          exact .inl (.presenceUpdate (hname ▸ ht) (validatePresenceUpdate_eq.mp hs))
        · exact .inr ⟨_, rfl⟩
      · split
        · rename_i hname
          split
          · rename_i n hn
            obtain ⟨value, hvalue, hid⟩ := Option.bind_eq_some_iff.mp hn
            exact .inl (.readReceipt (hname ▸ ht) hvalue hid)
          · exact .inr ⟨_, rfl⟩
        · exact .inr ⟨_, rfl⟩
  · exact .inr ⟨_, rfl⟩

/-- No frame is returned for what a valid message asks for, and for nothing else. -/
theorem response_dispatch : MessageRouter.response (MessageRouter.dispatch env fields) = none ↔
    ∃ route, Asks env fields route := by
  constructor
  · intro h
    obtain hasks | ⟨frame, hreply⟩ : Asks env fields (MessageRouter.dispatch env fields) ∨
        ∃ frame, MessageRouter.dispatch env fields = .reply frame := asks_or_reply
    · exact ⟨_, hasks⟩
    · rw [hreply] at h
      cases h
  · rintro ⟨route, hasks⟩
    rw [hasks.dispatch]
    cases hasks <;> rfl

/-- The two errors of the router. -/
theorem dispatch_reply (h : MessageRouter.dispatch env fields = .reply frame) :
    frame = malformed ∨ frame = .error (.unknownMessageType (messageType fields)) := by
  unfold MessageRouter.dispatch at h
  rw [← messageType] at h
  split at h
  · rename_i t ht
    rw [ht]
    split at h
    · cases h
    · split at h
      · split at h
        · cases h
        · cases h
          exact .inl rfl
      · split at h
        · split at h
          · cases h
          · cases h
            exact .inl rfl
        · cases h
          exact .inr rfl
  · cases h
    exact .inr rfl

/-! ## The exits of `route` -/

variable {send : Frame → σ → Option σ} {s s' s₁ : σ} {u c : String} {text : PyStr}
  {response : Option Frame}

theorem route_denied (hfits : rt.strFits (messageType fields) = true)
    (hallow : self.allow c s = some (s₁, false)) :
    self.route env rt u c (.obj fields) s = some (s₁, some RateLimitedMessage) := by
  simp [MessageRouter.route, hfits, hallow]

theorem route_allowed (hfits : rt.strFits (messageType fields) = true)
    (hallow : self.allow c s = some (s₁, true)) :
    self.route env rt u c (.obj fields) s =
      (self.perform u s₁ (MessageRouter.dispatch env fields)).map fun s' =>
        (s', MessageRouter.response (MessageRouter.dispatch env fields)) := by
  simp [MessageRouter.route, hfits, hallow]

/-- A call that returns has charged the connection, and was denied or performed. -/
theorem route_cases (h : self.route env rt u c (.obj fields) s = some (s', response)) :
    ∃ s₁ allowed, self.allow c s = some (s₁, allowed) ∧
      (allowed = false ∧ s' = s₁ ∧ response = some RateLimitedMessage ∨
        allowed = true ∧ self.perform u s₁ (MessageRouter.dispatch env fields) = some s' ∧
          response = MessageRouter.response (MessageRouter.dispatch env fields)) := by
  obtain ⟨hfits, h⟩ := Option.ite_none_right_eq_some.mp h
  obtain ⟨⟨s₁, allowed⟩, hallow, h⟩ := Option.bind_eq_some_iff.mp h
  refine ⟨s₁, allowed, hallow, ?_⟩
  cases allowed with
  | false =>
    obtain ⟨rfl, rfl⟩ := Prod.mk.inj (Option.some.inj h)
    exact .inl ⟨rfl, rfl, rfl⟩
  | true =>
    obtain ⟨s₂, hperform, heq⟩ := Option.map_eq_some_iff.mp h
    obtain ⟨rfl, rfl⟩ := Prod.mk.inj heq
    exact .inr ⟨rfl, hperform, rfl⟩

theorem turn_object {p : σ × Option Frame} (h : self.turn env rt send u c text s = some p) :
    ∃ fields q, decodeText rt.limits text = .ok (.obj fields) ∧
      rt.strFits (messageType fields) = true ∧
      self.route env rt u c (.obj fields) s = some q ∧
      MessageRouter.sendResponse send q = some p := by
  unfold MessageRouter.turn at h
  split at h
  · cases h
  · rename_i rawMessage hdecode
    obtain ⟨q, hroute, hsent⟩ := Option.bind_eq_some_iff.mp h
    cases rawMessage with
    | obj fields =>
      have hfits := (Option.ite_none_right_eq_some.mp hroute).1
      exact ⟨fields, q, hdecode, hfits, hroute, hsent⟩
    | _ => cases hroute

/-! ## What a turn survives -/

/-- The calls of the router return. -/
structure MessageRouter.NeverRaises (router : MessageRouter σ) : Prop where
  handle : ∀ u s, (router.handle u s).isSome = true
  markOnline : ∀ u s, (router.markOnline u s).isSome = true
  markAway : ∀ u s, (router.markAway u s).isSome = true
  allow : ∀ c s, (router.allow c s).isSome = true
  onReadReceipt : ∀ n u t s, (router.onReadReceipt n u t s).isSome = true

/-- A text with an unpaired surrogate has no UTF-8. -/
def encodable (text : PyStr) : Bool :=
  text.all fun c => !isHighSurrogate c.val && !isLowSurrogate c.val

/-- The text of an error. The `str` of what is no string is printable. -/
def ErrorDetail.encodable : ErrorDetail → Bool
  | .unknownMessageType (.str t) => App.encodable t
  | .unknownMessageType _ | .malformedPayload => true

/-- The socket is open, and takes every text that has UTF-8. -/
structure TakesText (send : Frame → σ → Option σ) : Prop where
  error : ∀ detail s, (send (.error detail) s).isSome = true ↔ detail.encodable = true
  rateLimited : ∀ detail s, (send (.rateLimited detail) s).isSome = true

/-- The limiter turns the connection away. -/
def MessageRouter.Denies (self : MessageRouter σ) (connectionId : String) (s : σ) : Prop :=
  (self.allow connectionId s).map (·.2) = some false

theorem perform_returns (h : self.NeverRaises) (route : Route) :
    (self.perform u s route).isSome = true := by
  cases route with
  | heartbeat => exact h.handle u s
  | presenceUpdate online =>
    cases online
    · exact h.markAway u s
    · exact h.markOnline u s
  | readReceipt n => exact h.onReadReceipt n u _ s
  | reply frame => rfl

/-- A type without UTF-8 is no name of a schema. -/
theorem dispatch_not_encodable {t : PyStr} (ht : messageType fields = .str t)
    (henc : encodable t = false) :
    MessageRouter.dispatch env fields = .reply (.error (.unknownMessageType (.str t))) := by
  have hne : ∀ name, encodable (PyStr.ofString name) = true → t ≠ PyStr.ofString name := by
    rintro name hname rfl
    rw [hname] at henc
    cases henc
  unfold MessageRouter.dispatch
  rw [← messageType, ht]
  simp [hne _ (by decide : encodable (PyStr.ofString "heartbeat") = true),
    hne _ (by decide : encodable (PyStr.ofString "presence_update") = true),
    hne _ (by decide : encodable (PyStr.ofString "read_receipt") = true)]

/-- What is sent when the limiter has let a message through. -/
theorem sends_reply (hsend : TakesText send)
    (hdue : ∀ t, messageType fields = .str t → encodable t = true)
    (h : MessageRouter.dispatch env fields = .reply frame) : (send frame s).isSome = true := by
  rcases dispatch_reply h with rfl | rfl
  · exact (hsend.error .malformedPayload s).mpr rfl
  · refine (hsend.error _ s).mpr ?_
    cases ht : messageType fields with
    | str t => exact hdue t ht
    | _ => rfl

/-- An object is answered, if the answer has UTF-8. -/
theorem turn_of_object (hcalls : self.NeverRaises) (hsend : TakesText send)
    (hdecode : decodeText rt.limits text = .ok (.obj fields))
    (hfits : rt.strFits (messageType fields) = true)
    (hdue : ∀ t, messageType fields = .str t → encodable t = true ∨ self.Denies c s) :
    ∃ s' response, self.turn env rt send u c text s = some (s', response) ∧
      ∀ frame, response = some frame → frame.plain = true := by
  obtain ⟨⟨s₁, allowed⟩, hallow⟩ := Option.isSome_iff_exists.mp (hcalls.allow c s)
  have hturn : self.turn env rt send u c text s =
      (self.route env rt u c (.obj fields) s).bind (MessageRouter.sendResponse send) := by
    rw [MessageRouter.turn, hdecode]
  rw [hturn]
  cases allowed with
  | false =>
    rw [route_denied hfits hallow]
    obtain ⟨s₂, hsent⟩ := Option.isSome_iff_exists.mp (hsend.rateLimited _ s₁)
    refine ⟨s₂, some RateLimitedMessage, ?_, ?_⟩
    · exact congrArg (Option.map fun s' => (s', some RateLimitedMessage)) hsent
    · rintro frame ⟨⟩
      rfl
  | true =>
    have hdue' : ∀ t, messageType fields = .str t → encodable t = true := by
      intro t ht
      refine (hdue t ht).resolve_right ?_
      simp [MessageRouter.Denies, hallow]
    have hreturns : (self.perform u s₁ (MessageRouter.dispatch env fields)).isSome = true :=
      perform_returns hcalls _
    obtain ⟨s₂, hperform⟩ := Option.isSome_iff_exists.mp hreturns
    rw [route_allowed hfits hallow, hperform, Option.map_some, Option.bind_some]
    cases hreply : MessageRouter.dispatch env fields with
    | reply frame =>
      have hsends : (send frame s₂).isSome = true := sends_reply hsend hdue' hreply
      obtain ⟨s₃, hsent⟩ := Option.isSome_iff_exists.mp hsends
      refine ⟨s₃, some frame, ?_, ?_⟩
      · exact congrArg (Option.map fun s' => (s', some frame)) hsent
      · rintro frame' ⟨⟩
        exact MessageRouter.dispatch_plain hreply
    | _ => exact ⟨s₂, none, rfl, by simp⟩

/-- A turn goes on iff the text is an object whose type `str` can render, and that
type has UTF-8 or the limiter answers. -/
theorem turn_continues_iff (hcalls : self.NeverRaises) (hsend : TakesText send) :
    (∃ s' response, self.turn env rt send u c text s = some (s', response) ∧
      ∀ frame, response = some frame → frame.plain = true) ↔
    ∃ fields, decodeText rt.limits text = .ok (.obj fields) ∧
      rt.strFits (messageType fields) = true ∧
      ∀ t, messageType fields = .str t → encodable t = true ∨ self.Denies c s := by
  constructor
  · rintro ⟨s', response, hturn, -⟩
    obtain ⟨fields, ⟨s₂, response'⟩, hdecode, hfits, hroute, hsent⟩ := turn_object hturn
    refine ⟨fields, hdecode, hfits, fun t ht => ?_⟩
    obtain ⟨s₁, allowed, hallow, ⟨rfl, -, -⟩ | ⟨rfl, hperform, rfl⟩⟩ := route_cases hroute
    · right
      simp [MessageRouter.Denies, hallow]
    · left
      by_contra henc
      rw [dispatch_not_encodable ht (by simpa using henc)] at hsent
      obtain ⟨s₃, hsent, -⟩ := Option.map_eq_some_iff.mp hsent
      exact henc ((hsend.error _ s₂).mp (Option.isSome_iff_exists.mpr ⟨s₃, hsent⟩))
  · rintro ⟨fields, hdecode, hfits, hdue⟩
    exact turn_of_object hcalls hsend hdecode hfits hdue

/-- A router whose calls return; the state is the number of messages. -/
def countingRouter (limit : Nat) : MessageRouter Nat where
  now n := n
  handle _ n := some n
  markOnline _ n := some n
  markAway _ n := some n
  allow _ n := some (n + 1, decide (n + 1 ≤ limit))
  onReadReceipt _ _ _ n := some n

theorem countingRouter_neverRaises (limit : Nat) : (countingRouter limit).NeverRaises :=
  ⟨fun _ _ => rfl, fun _ _ => rfl, fun _ _ => rfl, fun _ _ => rfl, fun _ _ _ _ => rfl⟩

/-- The state is that of the router; what has no UTF-8 is not sent. -/
def sendUtf8 (frame : Frame) (n : Nat) : Option Nat :=
  match frame with
  | .error detail => if detail.encodable then some n else none
  | .rateLimited _ | .backlog _ | .notification _ => some n

theorem takesText_sendUtf8 : TakesText sendUtf8 where
  error detail n := by
    cases h : detail.encodable <;> simp [sendUtf8, h]
  rateLimited _ _ := rfl

/-- The interpreter with room for ten levels of nesting. -/
def shallow : Runtime := ⟨⟨10, some 4300⟩, fun _ => true⟩

/-- A client goes to the background. -/
def awayText : PyStr := PyStr.ofString "\x7b\"type\":\"presence_update\",\"status\":\"away\"\x7d"

theorem turn_continues_iff_away :
    ∃ s' response, (countingRouter 50).turn plainEnv shallow sendUtf8 "u" "c" awayText 0
        = some (s', response) ∧
      ∀ frame, response = some frame → frame.plain = true := by
  have hdecode : decodeText shallow.limits awayText = .ok awayMessage := by decide +kernel
  refine (turn_continues_iff (countingRouter_neverRaises 50) takesText_sendUtf8).mpr
    ⟨_, hdecode, rfl, fun t ht => .inl ?_⟩
  obtain rfl : PyStr.ofString "presence_update" = t := Json.str.inj ht
  decide

/-- An array, or a text that is no JSON, ends the session. -/
theorem turn_ends : (countingRouter 50).NeverRaises ∧ TakesText sendUtf8 ∧
    (countingRouter 50).turn plainEnv shallow sendUtf8 "u" "c" (PyStr.ofString "[]") 0 = none ∧
    (countingRouter 50).turn plainEnv shallow sendUtf8 "u" "c" (PyStr.ofString "hello") 0 = none :=
  ⟨countingRouter_neverRaises 50, takesText_sendUtf8, rfl, rfl⟩

/-! ## The router of the platform -/

/-- `HeartbeatHandler.handle`: `heartbeat` of the manager, and `refresh` of the registry. -/
def HeartbeatHandler.commands (ttl : Nat) (userId : String) : List RedisCmd :=
  PresenceManager.commands ttl userId .heartbeat ++ [InstanceRegistry.refresh userId ttl]

/-- Commands with no other task in between. -/
def Shared.execAll (s : Shared) (cs : List RedisCmd) : Option Shared :=
  (RedisCmd.execAll s.now cs s.redis).map fun redis => { s with redis }

/-- The router as `lifespan` builds it. -/
def messageRouter (env : Env) : MessageRouter Shared where
  now := Shared.now
  handle u s := s.execAll (HeartbeatHandler.commands env.presenceTtlSeconds u)
  markOnline u s := s.execAll (PresenceManager.commands env.presenceTtlSeconds u .markOnline)
  markAway u s := s.execAll (PresenceManager.commands env.presenceTtlSeconds u .markAway)
  allow c s :=
    ((RateLimiter.allow c env.rateLimitMessages env.rateLimitWindowSeconds).exec s.redis s.now).map
      fun p => ({ s with redis := p.1 }, p.2)
  -- `_mark_read`, with `UUID(user_id)` before the transaction
  onReadReceipt n u t s := (UUID.ofString u).map fun id =>
    { s with db := (NotificationRepository.markRead s.db n id t).1 }

section

variable {next : GatewayPc → Step GatewayPc} {pc pc' : GatewayPc} {s s' : Shared} {n : Nat}
  {i c u : String} {response : Option Frame}

theorem perform_readReceipt (id : UUID) : (messageRouter env).perform u s (.readReceipt id) =
    (UUID.ofString u).map fun v =>
      { s with db := (NotificationRepository.markRead s.db id v s.now).1 } := by
  simp only [MessageRouter.perform, messageRouter]

/-- The points from `pc` to `pc'` await the commands, whatever the replies. -/
inductive Sends (next : GatewayPc → Step GatewayPc) :
    GatewayPc → List RedisCmd → GatewayPc → Prop where
  | nil {pc : GatewayPc} : Sends next pc [] pc
  | cons {pc pc' pc'' r : GatewayPc} {cmd : RedisCmd} {cs : List RedisCmd} :
      next pc = .call (.redis cmd) (fun _ => pc') r → Sends next pc' cs pc'' →
      Sends next pc (cmd :: cs) pc''

theorem Sends.alone {cs : List RedisCmd} (h : Sends next pc cs pc') (hx : s.execAll cs = some s') :
    semantics.Alone next s pc s' pc' := by
  induction h generalizing s with
  | nil =>
    obtain rfl := Option.some.inj hx
    exact .refl
  | @cons pc pc' pc'' r cmd cs hn _ ih =>
    obtain ⟨redis, hall, rfl⟩ := Option.map_eq_some_iff.mp hx
    obtain ⟨⟨redis₁, reply⟩, hcmd, hrest⟩ := Option.bind_eq_some_iff.mp hall
    have hexec : semantics.exec s (.redis cmd) .none
        = some ({ s with redis := redis₁ }, reply) := by
      show (cmd.exec s.redis s.now).map _ = _
      rw [hcmd]
      rfl
    refine .step (.returned hn hexec) (ih ?_)
    rw [Shared.execAll, hrest]
    rfl

/-- Where the handler goes with what `route` returns. -/
def GatewayPc.afterRoute (u : String) : Option Frame → GatewayPc
  | none => receive u
  | some frame => respond u frame

/-- The call of a branch is what the handler does from that branch on. -/
theorem perform_alone {fields : Dict PyStr Json}
    (h : (messageRouter env).perform u s (MessageRouter.dispatch env fields) = some s') :
    semantics.Alone (GatewayPc.next env n i c) s (.routed env u fields) s'
      (.afterRoute u (MessageRouter.response (MessageRouter.dispatch env fields))) := by
  unfold GatewayPc.routed
  cases hroute : MessageRouter.dispatch env fields with
  | heartbeat =>
    rw [hroute] at h
    have hsends : Sends (GatewayPc.next env n i c) (.heartbeat u)
        (HeartbeatHandler.commands env.presenceTtlSeconds u) (.receive u) :=
      .cons rfl (.cons rfl (.cons rfl .nil))
    exact hsends.alone h
  | presenceUpdate online =>
    rw [hroute] at h
    cases online with
    | true =>
      have hsends : Sends (GatewayPc.next env n i c) (.presence u true)
          (PresenceManager.commands env.presenceTtlSeconds u .markOnline) (.receive u) :=
        .cons rfl (.cons rfl .nil)
      exact hsends.alone h
    | false =>
      have hsends : Sends (GatewayPc.next env n i c) (.presence u false)
          (PresenceManager.commands env.presenceTtlSeconds u .markAway) (.receive u) :=
        .cons rfl (.cons rfl .nil)
      exact hsends.alone h
  | readReceipt n' =>
    rw [hroute, perform_readReceipt] at h
    obtain ⟨id, hid, rfl⟩ := Option.map_eq_some_iff.mp h
    rw [hid]
    have hexec : semantics.exec s (.markRead n' id) .none = some
        ({ s with db := (NotificationRepository.markRead s.db n' id s.now).1 },
          (NotificationRepository.markRead s.db n' id s.now).2) := rfl
    exact .step (.returned rfl hexec) .refl
  | reply frame =>
    rw [hroute] at h
    obtain rfl := Option.some.inj h
    exact .refl

/-- `route` is what the handler does between `receive_json` and `send_json`. -/
theorem route_alone {fields : Dict PyStr Json}
    (h : (messageRouter env).route env rt u c (.obj fields) s = some (s', response)) :
    semantics.Alone (GatewayPc.next env n i c) s (.allow u fields) s' (.afterRoute u response) := by
  obtain ⟨s₁, allowed, hallow, hexit⟩ := route_cases h
  obtain ⟨⟨redis, verdict⟩, hcmd, heq⟩ := Option.map_eq_some_iff.mp hallow
  obtain ⟨rfl, rfl⟩ := Prod.mk.inj heq
  have hexec : semantics.exec s
      (.redis (RateLimiter.allow c env.rateLimitMessages env.rateLimitWindowSeconds)) .none
        = some ({ s with redis }, verdict) := by
    show Option.map _ _ = _
    rw [hcmd]
    rfl
  refine .step (.returned rfl hexec) ?_
  rcases hexit with ⟨rfl, rfl, rfl⟩ | ⟨rfl, hperform, rfl⟩
  · exact .refl
  · exact perform_alone hperform

end

end RealtimeNotify.App
