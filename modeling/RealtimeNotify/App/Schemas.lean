import RealtimeNotify.App.World
import RealtimeNotify.Postgres.Jsonb

/-!
# `POST /notifications`: from the body to the column

The body is decoded by `json.loads` and validated as a `NotificationCreate`; the
payload goes to a `jsonb` column as what `json.dumps` makes of it. The validator
looks at the size of that text, the column at its content.
-/

namespace RealtimeNotify.App

open RealtimeNotify.Python RealtimeNotify.Postgres

/-! ## The fields -/

/-- `MAX_PAYLOAD_BYTES` -/
def maxPayloadBytes : Nat := 32 * 1024

/-- `[a-z][a-z0-9_]*` -/
def isNamespace : List Char → Bool
  | [] => false
  | c :: cs => c.isLower && cs.all fun c => c.isLower || c.isDigit || c == '_'

/-- `NOTIFICATION_TYPE_PATTERN`: two or more names with a dot between them. -/
def matchesPattern (s : List Char) : Bool :=
  let namespaces := s.splitOn '.'
  2 ≤ namespaces.length && namespaces.all isNamespace

/-- What is asked of pydantic: to validate a decoded value as a `UUID`, and the name
of a member as a `str`. -/
structure Pydantic where
  validateUuid : Json → Option UUID
  validateName : PyStr → Bool

inductive ErrorType where
  | missing
  | uuid
  | stringType
  | stringUnicode
  | stringTooLong
  | stringTooShort
  | stringPatternMismatch
  | dictType
  | valueError (message : String)
  | modelAttributesType
  deriving DecidableEq

/-- An error with the path to what it is about, from the body on. -/
structure ValidationError where
  loc : List PyStr
  type : ErrorType
  deriving DecidableEq

/-- `len(s.encode("utf-8"))`; no surrogate is in what `json.dumps` returns. -/
def utf8Length (s : PyStr) : Nat :=
  (s.map fun c => if c.val < 0x80 then 1 else if c.val < 0x800 then 2
    else if c.val < 0x10000 then 3 else 4).sum

/-- `payload_within_size_limit` -/
def payloadWithinSizeLimit (payload : Json) : Except String Json :=
  let size := utf8Length (jsonDumps payload)
  if maxPayloadBytes < size then
    .error s!"payload exceeds the {maxPayloadBytes} byte limit ({size} bytes)"
  else .ok payload

namespace NotificationCreate

/-- What a field is validated to, or its errors. -/
abbrev Checked (α : Type) := Except (List ValidationError) α

def fail {α : Type} (name : String) (type : ErrorType) : Checked α :=
  .error [⟨[PyStr.ofString "body", PyStr.ofString name], type⟩]

def uuidField (pydantic : Pydantic) (name : String) (fields : Dict PyStr Json) : Checked UUID :=
  match fields.get (PyStr.ofString name) with
  | none => fail name .missing
  | some value =>
      match pydantic.validateUuid value with
      | none => fail name .uuid
      | some u => .ok u

def typeField (fields : Dict PyStr Json) : Checked String :=
  match fields.get (PyStr.ofString "type") with
  | none => fail "type" .missing
  | some (.str s) =>
      match s.text? with
      | none => fail "type" .stringUnicode
      | some text =>
          if 50 < text.length then fail "type" .stringTooLong
          else if text.length < 1 then fail "type" .stringTooShort
          else if matchesPattern text.toList then .ok text
          else fail "type" .stringPatternMismatch
  | some _ => fail "type" .stringType

/-- `dict[str, Any]`, then the validator of the schema. The default is not validated. -/
def payloadField (pydantic : Pydantic) (fields : Dict PyStr Json) : Checked Json :=
  match fields.get (PyStr.ofString "payload") with
  | none => .ok (.obj [])
  | some (.obj members) =>
      match members.filter fun member => !pydantic.validateName member.1 with
      | [] =>
          match payloadWithinSizeLimit (.obj members) with
          | .error message => fail "payload" (.valueError message)
          | .ok payload => .ok payload
      | refused => .error (refused.map fun member =>
          ⟨[PyStr.ofString "body", PyStr.ofString "payload", member.1, PyStr.ofString "[key]"],
            .stringUnicode⟩)
  | some _ => fail "payload" .dictType

def errors {α : Type} : Checked α → List ValidationError
  | .ok _ => []
  | .error es => es

/-- All fields are validated, and the errors of all are returned. -/
def validate (pydantic : Pydantic) (value : Json) : Checked NotificationCreate :=
  match value with
  | .obj fields =>
      let notificationId := uuidField pydantic "notification_id" fields
      let userId := uuidField pydantic "user_id" fields
      let type := typeField fields
      let payload := payloadField pydantic fields
      match notificationId, userId, type, payload with
      | .ok notificationId, .ok userId, .ok type, .ok payload =>
          .ok { notificationId, userId, type, payload }
      | _, _, _, _ =>
          .error (errors notificationId ++ errors userId ++ errors type ++ errors payload)
  | _ => .error [⟨[PyStr.ofString "body"], .modelAttributesType⟩]

/-- Why a request does not reach the handler. -/
inductive Refusal where
  | notJson (e : LoadsError)
  | invalid (es : List ValidationError)

/-- A body that is `None` is missing; any other is validated. -/
def validateBody (pydantic : Pydantic) : Json → Checked NotificationCreate
  | .null => .error [⟨[PyStr.ofString "body"], .missing⟩]
  | value => validate pydantic value

/-- The body of a request, as the handler gets it. No bytes are decoded to `None`. -/
def ofRequest (limits : Limits) (pydantic : Pydantic) (raw : Bytes) :
    Except Refusal NotificationCreate :=
  match if raw = [] then .ok .null else jsonLoads limits (.bytes raw) with
  | .error e => .error (.notJson e)
  | .ok value => (validateBody pydantic value).mapError .invalid

end NotificationCreate

example : matchesPattern "message.received".toList = true := by decide
example : matchesPattern "message.".toList = false := by decide

/-! ## The column -/

/-- What `NotificationRepository.create` sends for the `jsonb` column. -/
def payloadText (body : NotificationCreate) : PyStr := jsonDumps body.payload

/-- The payload as it is in the request. -/
def sentPayload (limits : Limits) (raw : Bytes) : Json :=
  match jsonLoads limits (.bytes raw) with
  | .ok (.obj fields) => (Dict.get fields (PyStr.ofString "payload")).getD (.obj [])
  | _ => .obj []

namespace NotificationCreate

variable {limits : Limits} {pydantic : Pydantic} {fields : Dict PyStr Json} {payload : Json}
  {value : Json} {raw : Bytes} {body : NotificationCreate}

theorem payloadWithinSizeLimit_ok {p : Json} : payloadWithinSizeLimit payload = .ok p ↔
    utf8Length (jsonDumps payload) ≤ maxPayloadBytes ∧ p = payload := by
  unfold payloadWithinSizeLimit
  by_cases hsize : maxPayloadBytes < utf8Length (jsonDumps payload)
  · simp [hsize]
  · simp [hsize, Nat.not_lt.mp hsize, eq_comm]

/-- A payload that is let through is the one that was sent. -/
theorem payloadField_ok (h : payloadField pydantic fields = .ok payload) :
    payload = (fields.get (PyStr.ofString "payload")).getD (.obj []) := by
  unfold payloadField at h
  split at h
  · rename_i hget
    cases h
    rw [hget]
    rfl
  · rename_i members hget
    split at h
    · split at h
      · cases h
      · rename_i hsize
        cases h
        rw [hget, (payloadWithinSizeLimit_ok.mp hsize).2]
        rfl
    · cases h
  · cases h

/-- All errors of a field are at the field or within it. -/
def Located {α : Type} (name : String) (c : Checked α) : Prop :=
  ∀ e ∈ errors c, [PyStr.ofString "body", PyStr.ofString name] <+: e.loc

theorem located_ok {α : Type} {name : String} {a : α} : Located name (.ok a) := nofun

theorem located_fail {α : Type} {name : String} {type : ErrorType} :
    Located name (fail name type : Checked α) := by
  intro e he
  obtain rfl := List.mem_singleton.mp he
  exact List.prefix_rfl

theorem located_uuidField (name : String) : Located name (uuidField pydantic name fields) := by
  unfold uuidField
  split
  · exact located_fail
  · split
    · exact located_fail
    · exact located_ok

theorem located_typeField : Located "type" (typeField fields) := by
  unfold typeField
  split
  · exact located_fail
  · split
    · exact located_fail
    · split_ifs
      · exact located_fail
      · exact located_fail
      · exact located_ok
      · exact located_fail
  · exact located_fail

theorem located_payloadField : Located "payload" (payloadField pydantic fields) := by
  unfold payloadField
  split
  · exact located_ok
  · split
    · split
      · exact located_fail
      · exact located_ok
    · intro e he
      obtain ⟨member, -, rfl⟩ := List.mem_map.mp he
      exact ⟨[member.1, PyStr.ofString "[key]"], rfl⟩
  · exact located_fail

/-- Every error names the body or a field of the schema. -/
theorem validate_errors {es : List ValidationError} (h : validate pydantic value = .error es) :
    ∀ e ∈ es, e.loc = [PyStr.ofString "body"] ∨
      ∃ name ∈ ["notification_id", "user_id", "type", "payload"],
        [PyStr.ofString "body", PyStr.ofString name] <+: e.loc := by
  intro e he
  unfold validate at h
  split at h
  · simp only at h
    split at h
    · cases h
    · cases h
      right
      simp only [List.mem_append] at he
      obtain ((he | he) | he) | he := he
      · exact ⟨"notification_id", by simp, located_uuidField _ e he⟩
      · exact ⟨"user_id", by simp, located_uuidField _ e he⟩
      · exact ⟨"type", by simp, located_typeField e he⟩
      · exact ⟨"payload", by simp, located_payloadField e he⟩
  · cases h
    exact .inl (by rw [List.mem_singleton.mp he])

theorem validateBody_errors {es : List ValidationError}
    (h : validateBody pydantic value = .error es) : ∀ e ∈ es, e.loc = [PyStr.ofString "body"] ∨
      ∃ name ∈ ["notification_id", "user_id", "type", "payload"],
        [PyStr.ofString "body", PyStr.ofString name] <+: e.loc := by
  unfold validateBody at h
  split at h
  · intro e he
    cases h
    exact .inl (by rw [List.mem_singleton.mp he])
  · exact validate_errors h

/-- The default would pass the check that it is spared. -/
theorem default_within_size_limit : payloadWithinSizeLimit (.obj []) = .ok (.obj []) :=
  payloadWithinSizeLimit_ok.mpr ⟨by decide, rfl⟩

/-- One field after the other. -/
theorem validate_ok (h : validate pydantic value = .ok body) : ∃ fields, value = .obj fields ∧
    uuidField pydantic "notification_id" fields = .ok body.notificationId ∧
    uuidField pydantic "user_id" fields = .ok body.userId ∧
    typeField fields = .ok body.type ∧ payloadField pydantic fields = .ok body.payload := by
  unfold validate at h
  split at h
  · rename_i fields
    simp only at h
    split at h
    · rename_i hn hu ht hp
      cases h
      exact ⟨fields, rfl, hn, hu, ht, hp⟩
    · cases h
  · cases h

theorem validateBody_ok (h : validateBody pydantic value = .ok body) :
    validate pydantic value = .ok body := by
  unfold validateBody at h
  split at h
  · cases h
  · exact h

theorem ofRequest_ok (h : ofRequest limits pydantic raw = .ok body) : ∃ value,
    jsonLoads limits (.bytes raw) = .ok value ∧ validate pydantic value = .ok body := by
  unfold ofRequest at h
  split at h
  · cases h
  · rename_i value hvalue
    have hbody : validateBody pydantic value = .ok body := by
      cases hbody : validateBody pydantic value with
      | error es =>
        rw [hbody] at h
        cases h
      | ok b =>
        rw [hbody] at h
        cases h
        rfl
    have hvalid := validateBody_ok hbody
    obtain ⟨fields, rfl, -⟩ := validate_ok hvalid
    -- an object does not come from no bytes
    split at hvalue
    · cases hvalue
    · exact ⟨_, hvalue, hvalid⟩

theorem ofRequest_payload (h : ofRequest limits pydantic raw = .ok body) :
    body.payload = sentPayload limits raw := by
  obtain ⟨value, hloads, hvalue⟩ := ofRequest_ok h
  obtain ⟨fields, rfl, -, -, -, hpayload⟩ := validate_ok hvalue
  rw [sentPayload, hloads]
  exact payloadField_ok hpayload

end NotificationCreate

/-- What is let through can be inserted exactly when all numbers in the payload are
finite and all of its strings can be stored. -/
theorem payload_insertable_iff {limits : Limits} {pydantic : Pydantic} {raw : Bytes}
    {body : NotificationCreate} (h : NotificationCreate.ofRequest limits pydantic raw = .ok body) :
    jsonbAccepts (payloadText body) = true ↔ storable (sentPayload limits raw) = true := by
  rw [payloadText, jsonbAccepts_dumps, NotificationCreate.ofRequest_payload h]

/-! ## Two requests -/

def asciiBytes (s : String) : Bytes := s.toList.map fun c => UInt8.ofNat c.toNat

/-- A request with a payload, which is given as text. -/
def someRequest (payload : String) : Bytes :=
  ["\x7b\"notification_id\": \"", someUser, "\", \"user_id\": \"", someUser, "\", \"type\": ",
    "\"message.received\", ", "\"payload\": ", payload, "\x7d"].flatMap asciiBytes

def someLimits : Limits := { depth := 100 }

/-- `uuid.UUID` on strings, and no name refused. -/
def somePydantic : Pydantic where
  validateUuid
    | .str s => s.text?.bind UUID.ofString
    | _ => none
  validateName _ := true

theorem exists_body (raw : Bytes)
    (h : (NotificationCreate.ofRequest someLimits somePydantic raw).isOk = true) :
    ∃ body, NotificationCreate.ofRequest someLimits somePydantic raw = .ok body := by
  cases hbody : NotificationCreate.ofRequest someLimits somePydantic raw with
  | ok body => exact ⟨body, rfl⟩
  | error e =>
    rw [hbody] at h
    cases h

theorem payload_insertable_iff_finite : ∃ body,
    NotificationCreate.ofRequest someLimits somePydantic
      (someRequest "\x7b\"a\": [1e300, \"\\u00e9\"]\x7d") = .ok body ∧
    jsonbAccepts (payloadText body) = true := by
  obtain ⟨body, h⟩ := exists_body (someRequest "\x7b\"a\": [1e300, \"\\u00e9\"]\x7d")
    (by decide +kernel)
  exact ⟨body, h, (payload_insertable_iff h).mpr (by decide +kernel)⟩

/-- `1e400` is let through, is `Infinity` in the text, and no retry can insert it. -/
theorem overflowing_payload_refused :
    ¬ ∀ (limits : Limits) (pydantic : Pydantic) (raw : Bytes) (body : NotificationCreate),
      NotificationCreate.ofRequest limits pydantic raw = .ok body →
      jsonbAccepts (payloadText body) = true := by
  intro hall
  obtain ⟨body, h⟩ := exists_body (someRequest "\x7b\"a\": 1e400\x7d") (by decide +kernel)
  have haccepted := hall _ _ _ body h
  rw [payloadText, jsonbAccepts_dumps, NotificationCreate.ofRequest_payload h] at haccepted
  exact absurd haccepted (by decide +kernel)

end RealtimeNotify.App
