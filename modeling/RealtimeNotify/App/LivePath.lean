import RealtimeNotify.App.WsMessages
import RealtimeNotify.Python.JsonRoundtrip

/-!
# From the publisher to the socket

`Publisher` dumps a message, the subscriber of the instance loads it and the local
handler makes a frame of it. Between them lies text; what the platform sends itself
always comes through.
-/

namespace RealtimeNotify.App

open RealtimeNotify.Python RealtimeNotify.Postgres

/-- The message of a row is within the limits of the subscriber: the payload stands two
levels deep in it. -/
def Notification.Sendable (limits : Limits) (row : Notification) : Prop :=
  ∃ depth, limits.depth = depth + 2 ∧ row.payload.within limits depth = true

/-- The handler is called with an object that has a time of publication, makes of it a
frame for the user of the row, and a client reads the row from that. -/
def Delivers (pydantic : PydanticJson) (row : Notification) (payload : Json) : Prop :=
  ∃ fields publishedAt frame envelope,
    payload = .obj fields ∧
    Dict.get fields (PyStr.ofString "published_at") = some (.float publishedAt) ∧
    deliver payload = some (.str (PyStr.ofString row.userId.str), frame) ∧
    NotificationMessage.validate pydantic frame = some envelope ∧
    envelope.payload.exact = row.payload.joined.exact ∧
    envelope = { row.envelope with payload := envelope.payload }

variable {pydantic : PydanticJson} {limits : Limits} {row : Notification} {publishedAt : PyFloat}

theorem publishedMessage_within (publishedAt : PyFloat) (h : row.Sendable limits) :
    (publishedMessage publishedAt row).within limits limits.depth = true := by
  obtain ⟨depth, hdepth, hpayload⟩ := h
  have hlive : row.envelope.live.payload.within limits depth = true := hpayload
  rw [hdepth, publishedMessage, Json.within, withinFields_iff]
  intro f hf
  simp only [List.mem_cons, List.not_mem_nil, or_false] at hf
  obtain rfl | rfl | rfl := hf
  · rfl
  · rfl
  · rw [LiveNotification.json, Json.within, withinFields_iff]
    intro f hf
    simp only [LiveNotification.fields, List.mem_cons, List.not_mem_nil, or_false] at hf
    obtain rfl | rfl | rfl | rfl | rfl := hf <;> first | exact hlive | exact Json.within_str _

/-- Nothing but the payload changes on the way. -/
theorem publishedMessage_joined : (publishedMessage publishedAt row).joined
    = .obj [(PyStr.ofString "user_id", .str (PyStr.ofString row.userId.str)),
      (PyStr.ofString "published_at", .float publishedAt),
      (PyStr.ofString "notification",
        LiveNotification.json { row.envelope.live with payload := row.payload.joined })] := by
  have hkeys : (["user_id", "published_at", "notification"].map PyStr.ofString).Nodup := by decide
  have hlive : row.envelope.live.json.joined
      = LiveNotification.json { row.envelope.live with payload := row.payload.joined } := by
    have hkeys : (["notification_id", "user_id", "type", "payload", "created_at"].map
      PyStr.ofString).Nodup := by decide
    simp only [LiveNotification.json, LiveNotification.fields, Json.joined, joinedFields,
      PyStr.joined_ofString]
    exact congrArg Json.obj (collect_of_nodup (d := []) hkeys)
  simp only [publishedMessage, Json.joined, joinedFields, PyStr.joined_ofString, hlive]
  exact congrArg Json.obj (collect_of_nodup (d := []) hkeys)

/-- Texts come back as they are. -/
theorem get_str_of_exactFields {d d' : Dict PyStr Json} {k s : PyStr}
    (h : exactFields d = exactFields d') (hs : d'.get k = some (.str s)) :
    d.get k = some (.str s) := by
  obtain ⟨w, hw, hexact⟩ := get_of_exactFields h hs
  rw [hw, exact_eq_str hexact]

/-- A notification whose payload came back in another form is the row in all else. -/
theorem validate_exact (hp : pydantic.Documented) (h : row.Stored) {notification : Json}
    (hexact : notification.exact =
      (LiveNotification.json { row.envelope.live with payload := row.payload.joined }).exact) :
    ∃ e, NotificationEnvelope.validate pydantic notification = some e ∧
      e.payload.exact = row.payload.joined.exact ∧
      e = { row.envelope with payload := e.payload } := by
  obtain ⟨fields, rfl, hfields⟩ := exact_eq_obj hexact
  obtain ⟨hn, hu, ht, hpay, hc⟩ :=
    LiveNotification.get_fields { row.envelope.live with payload := row.payload.joined }
  obtain ⟨payload, hpayload, hpexact⟩ := get_of_exactFields hfields hpay
  obtain ⟨members, hmembers⟩ := h.object
  obtain ⟨ms, rfl, hback⟩ : ∃ ms, payload = .obj ms ∧ exactFields ms =
      exactFields (collect [] (joinedFields members)) := by
    refine exact_eq_obj (hpexact.trans ?_)
    rw [hmembers]
    rfl
  refine ⟨{ row.envelope with payload := .obj ms }, ?_, hpexact, rfl⟩
  have hid : pydantic.validateUuid (.str (PyStr.ofString row.envelope.live.notificationId))
      = some row.notificationId := hp.validateUuid row.notificationId
  have huser : pydantic.validateUuid (.str (PyStr.ofString row.envelope.live.userId))
      = some row.userId := hp.validateUuid row.userId
  have htype : validateStr (.str (PyStr.ofString row.envelope.live.type)) = some row.type :=
    PyStr.text?_ofString row.type
  have hdict : validateDict pydantic (.obj ms) = some (.obj ms) :=
    if_pos (List.all_eq_true.mpr fun member hmember => hp.validateName member.1
      (storable_names_back (hmembers ▸ h.payload) hback member hmember))
  have hcreatedAt : pydantic.validateDatetime (.str (PyStr.ofString row.envelope.live.createdAt))
      = some row.createdAt := hp.validateDatetime _ _ (readIso_isoformat h.createdAt)
  rw [NotificationEnvelope.validate, get_str_of_exactFields hfields hn,
    get_str_of_exactFields hfields hu, get_str_of_exactFields hfields ht, hpayload,
    get_str_of_exactFields hfields hc]
  simp only [Option.bind_eq_bind, Option.bind_some, hid, huser, htype, hdict, hcreatedAt]
  rfl

/-- Whatever value its message is loaded as, the handler delivers the row. -/
theorem delivers_of_exact (hp : pydantic.Documented) (h : row.Stored) {payload : Json}
    (hexact : payload.exact = (publishedMessage publishedAt row).joined.exact) :
    Delivers pydantic row payload := by
  rw [publishedMessage_joined] at hexact
  obtain ⟨fields, rfl, hfields⟩ := exact_eq_obj hexact
  have huser : Dict.get fields (PyStr.ofString "user_id")
      = some (.str (PyStr.ofString row.userId.str)) := get_str_of_exactFields hfields rfl
  obtain ⟨published, hpublished, hfloat⟩ := get_of_exactFields (k := PyStr.ofString "published_at")
    (v := .float publishedAt) hfields rfl
  obtain ⟨notification, hnotification, hnexact⟩ := get_of_exactFields
    (k := PyStr.ofString "notification") hfields rfl
  obtain ⟨e, he, hepayload, heq⟩ := validate_exact hp h hnexact
  obtain ⟨x, rfl⟩ := exact_eq_float hfloat
  have hdeliver : deliver (.obj fields) = some (.str (PyStr.ofString row.userId.str),
      .obj [(PyStr.ofString "type", .str (PyStr.ofString "notification")),
        (PyStr.ofString "notification", notification)]) := by
    simp only [deliver, huser, hnotification, Option.bind_eq_bind, Option.bind_some]
    rfl
  exact ⟨fields, x, _, e, rfl, hpublished, hdeliver, he, hepayload, heq⟩

theorem loads_publishedData (publishedAt : PyFloat) (hp : pydantic.Documented)
    (h : row.Stored) (hs : row.Sendable limits) :
    ∃ payload, jsonLoads limits (publishedData (publishedMessage publishedAt row)) = .ok payload ∧
      Delivers pydantic row payload := by
  obtain ⟨w, hw, hexact⟩ := loads_dumps (publishedMessage_within publishedAt hs)
  exact ⟨w, hw, delivers_of_exact hp h hexact⟩

/-- The published messages are loaded one by one, and each delivers its row. -/
theorem loaded_deliver (hp : pydantic.Documented) {sent : List (PyFloat × Notification)}
    (hrows : ∀ p ∈ sent, p.2.Stored ∧ p.2.Sendable limits) :
    List.Forall₂ (Delivers pydantic) (sent.map Prod.snd)
      ((sent.map fun p => publishedData (publishedMessage p.1 p.2)).filterMap
        fun d => (jsonLoads limits d).toOption) := by
  induction sent with
  | nil => exact .nil
  | cons p sent ih =>
    obtain ⟨hstored, hsendable⟩ := hrows p List.mem_cons_self
    obtain ⟨payload, hpayload, hdelivers⟩ := loads_publishedData p.1 hp hstored hsendable
    have hrest := ih fun q hq => hrows q (List.mem_cons_of_mem _ hq)
    simp only [List.map_cons, List.filterMap_cons, hpayload, Except.toOption]
    exact .cons hdelivers hrest

/-- With nothing but messages of such rows on its channel, whatever else comes from the
client of Redis and whichever calls of the handler raise, the task of the subscriber takes
all, does not end, and calls the handler once for each row, in the order they were
published. -/
theorem published_come_through (hp : pydantic.Documented) {instanceId : String}
    {raises : Nat → Bool} {messages : List ListenMessage} {sent : List (PyFloat × Notification)}
    (hrows : ∀ p ∈ sent, p.2.Stored ∧ p.2.Sendable limits)
    (hdata : (messages.filter (·.type = "message")).map (·.data)
      = sent.map fun p => publishedData (publishedMessage p.1 p.2)) :
    let listened := Subscriber.listen limits instanceId raises 0 messages
    listened.raised = none ∧ listened.taken = messages.length ∧
      List.Forall₂ (Delivers pydantic) (sent.map Prod.snd) listened.calls := by
  have hloads : ∀ m ∈ messages, m.type = "message" → Loadable limits m.data := by
    intro m hm htype
    have hmem : m.data ∈ (messages.filter (·.type = "message")).map (·.data) :=
      List.mem_map.mpr ⟨m, List.mem_filter.mpr ⟨hm, by simp [htype]⟩, rfl⟩
    rw [hdata] at hmem
    obtain ⟨p, hp', hm⟩ := List.mem_map.mp hmem
    obtain ⟨hstored, hsendable⟩ := hrows p hp'
    obtain ⟨payload, hpayload, -⟩ := loads_publishedData p.1 hp hstored hsendable
    refine loadable_iff.mpr fun e he => ?_
    rw [← hm, hpayload] at he
    cases he
  have hlistened : (Subscriber.listen limits instanceId raises 0 messages).raised = none ∧
      (Subscriber.listen limits instanceId raises 0 messages).taken = messages.length ∧
      (Subscriber.listen limits instanceId raises 0 messages).calls = payloads limits messages :=
    Subscriber.listen_loadable hloads
  obtain ⟨hraised, htaken, hcalls⟩ := hlistened
  refine ⟨hraised, htaken, ?_⟩
  -- the handler is called with what the messages of type "message" load as
  have hpayloads : payloads limits messages
      = (sent.map fun p => publishedData (publishedMessage p.1 p.2)).filterMap
        fun d => (jsonLoads limits d).toOption := by
    rw [← hdata, List.filterMap_map, List.filterMap_filter]
    refine List.filterMap_congr fun m _ => ?_
    by_cases htype : m.type = "message" <;> simp [htype]
  rw [hcalls, hpayloads]
  exact loaded_deliver hp hrows

/-- Two rows, a subscription before them and a message of another kind between. -/
theorem published_come_through_nested :
    let published : LoadsInput :=
      publishedData (publishedMessage (.decimal false 15 (-1)) nestedRow)
    let listened := Subscriber.listen someLimits "a" (fun n => n = 0) 0
      [⟨"subscribe", .int 1⟩, ⟨"message", published⟩, ⟨"pong", .bytes []⟩, ⟨"message", published⟩]
    listened.raised = none ∧ listened.taken = 4 ∧
      List.Forall₂ (Delivers plainPydantic) [nestedRow, nestedRow] listened.calls := by
  have hrows : ∀ p ∈ [(PyFloat.decimal false 15 (-1), nestedRow),
      (PyFloat.decimal false 15 (-1), nestedRow)], p.2.Stored ∧ p.2.Sendable someLimits := by
    intro p hp
    obtain rfl : p = (.decimal false 15 (-1), nestedRow) := by simpa using hp
    exact ⟨⟨⟨_, rfl⟩, rfl, rfl⟩, 98, rfl, by decide⟩
  exact published_come_through plainPydantic_documented hrows rfl

end RealtimeNotify.App
