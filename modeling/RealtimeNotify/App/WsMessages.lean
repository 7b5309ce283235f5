import RealtimeNotify.App.Schemas
import RealtimeNotify.App.Subscriber
import RealtimeNotify.Python.IsoFormat

/-!
# The two ways of a notification to a client

A live notification is put together by hand, goes through Pub/Sub as text and is
forwarded as it is; a backlog is dumped by its schema. A client validates what it
gets by the schemas of the messages. Of pydantic the model has only what its
documentation says.
-/

namespace RealtimeNotify.App

open RealtimeNotify.Python RealtimeNotify.Postgres

/-! ## The live frame -/

def LiveNotification.fields (n : LiveNotification) : Dict PyStr Json :=
  [(PyStr.ofString "notification_id", .str (PyStr.ofString n.notificationId)),
    (PyStr.ofString "user_id", .str (PyStr.ofString n.userId)),
    (PyStr.ofString "type", .str (PyStr.ofString n.type)),
    (PyStr.ofString "payload", n.payload),
    (PyStr.ofString "created_at", .str (PyStr.ofString n.createdAt))]

def LiveNotification.json (n : LiveNotification) : Json := .obj n.fields

theorem LiveNotification.get_fields (n : LiveNotification) :
    Dict.get n.fields (PyStr.ofString "notification_id")
      = some (.str (PyStr.ofString n.notificationId)) ∧
    Dict.get n.fields (PyStr.ofString "user_id") = some (.str (PyStr.ofString n.userId)) ∧
    Dict.get n.fields (PyStr.ofString "type") = some (.str (PyStr.ofString n.type)) ∧
    Dict.get n.fields (PyStr.ofString "payload") = some n.payload ∧
    Dict.get n.fields (PyStr.ofString "created_at") = some (.str (PyStr.ofString n.createdAt)) :=
  ⟨rfl, rfl, rfl, rfl, rfl⟩

/-- What `create_notification` publishes for a row. -/
def publishedMessage (publishedAt : PyFloat) (row : Notification) : Json :=
  .obj [(PyStr.ofString "user_id", .str (PyStr.ofString row.userId.str)),
    (PyStr.ofString "published_at", .float publishedAt),
    (PyStr.ofString "notification", row.envelope.live.json)]

/-- `json.dumps(message)`, which is ASCII, as a subscriber gets it. -/
def publishedData (message : Json) : LoadsInput :=
  .bytes ((jsonDumps message).map fun c => UInt8.ofNat c.val)

/-- The handler of `_make_local_delivery_handler`: for whom, and the frame. -/
def deliver (payload : Json) : Option (Json × Json) :=
  match payload with
  | .obj fields => do
      let userId ← Dict.get fields (PyStr.ofString "user_id")
      let notification ← Dict.get fields (PyStr.ofString "notification")
      return (userId, .obj [(PyStr.ofString "type", .str (PyStr.ofString "notification")),
        (PyStr.ofString "notification", notification)])
  | _ => none

/-- What is asked of pydantic for the messages: to validate a decoded value as a
`datetime`, and what `model_dump(mode="json")` makes of a field. -/
structure PydanticJson extends Pydantic where
  validateDatetime : Json → Option Datetime
  dumpUuid : UUID → String
  dumpDatetime : Datetime → String
  dumpAny : Json → Json

/-- What its documentation says. A name is a valid `str` if it has UTF-8: as in JSON, the two
halves of a surrogate pair are one character there, and a half alone has none. -/
structure PydanticJson.Documented (pydantic : PydanticJson) : Prop where
  validateUuid : ∀ u : UUID, pydantic.validateUuid (.str (PyStr.ofString u.str)) = some u
  validateName : ∀ name, storableStr name = true → pydantic.validateName name = true
  validateDatetime : ∀ s d, readIso s = some d →
    pydantic.validateDatetime (.str (PyStr.ofString s)) = some d
  dumpUuid : ∀ u, pydantic.dumpUuid u = u.str
  dumpDatetime : ∀ d, d.utcoffset % 60 = 0 → pydantic.dumpDatetime d = d.isoformatZ
  dumpAny : ∀ value, storable value = true → pydantic.dumpAny value = value

section

variable (pydantic : PydanticJson)

def validateStr : Json → Option String
  | .str s => s.text?
  | _ => none

/-- `dict[str, Any]` -/
def validateDict : Json → Option Json
  | .obj members =>
      if members.all fun member => pydantic.validateName member.1 then some (.obj members)
      else none
  | _ => none

/-- `type: Literal[name] = name` -/
def literalType (name : String) (fields : Dict PyStr Json) : Bool :=
  match Dict.get fields (PyStr.ofString "type") with
  | none => true
  | some (.str s) => s = PyStr.ofString name
  | some _ => false

def NotificationEnvelope.validate : Json → Option NotificationEnvelope
  | .obj fields => do
      let notificationId ←
        (Dict.get fields (PyStr.ofString "notification_id")).bind pydantic.validateUuid
      let userId ← (Dict.get fields (PyStr.ofString "user_id")).bind pydantic.validateUuid
      let type ← (Dict.get fields (PyStr.ofString "type")).bind validateStr
      let payload ← (Dict.get fields (PyStr.ofString "payload")).bind (validateDict pydantic)
      let createdAt ←
        (Dict.get fields (PyStr.ofString "created_at")).bind pydantic.validateDatetime
      return { notificationId, userId, type, payload, createdAt }
  | _ => none

/-- `NotificationMessage.model_validate`, the notification. -/
def NotificationMessage.validate : Json → Option NotificationEnvelope
  | .obj fields =>
      if literalType "notification" fields then
        (Dict.get fields (PyStr.ofString "notification")).bind
          (NotificationEnvelope.validate pydantic)
      else none
  | _ => none

/-- `BacklogMessage.model_validate`, the notifications. -/
def BacklogMessage.validate : Json → Option (List NotificationEnvelope)
  | .obj fields =>
      if literalType "backlog" fields then
        match Dict.get fields (PyStr.ofString "notifications") with
        | some (.arr items) => items.mapM (NotificationEnvelope.validate pydantic)
        | _ => none
      else none
  | _ => none

end

/-! ## Both decode to the row -/

/-- What a stored row holds: an object of values that a `jsonb` column has, and a time
that `isoformat` prints in the usual form, with an offset of hours and minutes. -/
structure Notification.Stored (row : Notification) : Prop where
  object : ∃ members, row.payload = .obj members
  payload : storable row.payload = true
  createdAt : row.createdAt.utcoffset % 60 = 0

variable {pydantic : PydanticJson} {row : Notification}

/-- A pydantic of what is documented. -/
def plainPydantic : PydanticJson where
  validateUuid := somePydantic.validateUuid
  validateName := somePydantic.validateName
  validateDatetime
    | .str s => s.text?.bind readIso
    | _ => none
  dumpUuid := UUID.str
  dumpDatetime := Datetime.isoformatZ
  dumpAny value := value

theorem plainPydantic_documented : plainPydantic.Documented where
  validateUuid u := by
    rw [plainPydantic, somePydantic]
    simp only [PyStr.text?_ofString, Option.bind_some, UUID.ofString_str]
  validateName _ _ := rfl
  validateDatetime s d hd := by
    rw [plainPydantic]
    simp only [PyStr.text?_ofString, Option.bind_some, hd]
  dumpUuid _ := rfl
  dumpDatetime _ _ := rfl
  dumpAny _ _ := rfl

/-- A row with a nested payload, half past a minute in India. -/
def nestedRow : Notification where
  notificationId := someBody.notificationId
  userId := someBody.userId
  type := someBody.type
  payload := .obj [(PyStr.ofString "a", .arr [.float (.decimal false 15 (-1)), .null,
    .str (PyStr.ofString "é")])]
  createdAt := { newYear with microsecond := 500000, utcoffset := 19800, offset_valid := by decide,
                              time_valid := by decide }
  deliveredLive := false
  readAt := none

end RealtimeNotify.App
