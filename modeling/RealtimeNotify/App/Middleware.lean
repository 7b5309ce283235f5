import RealtimeNotify.App.Logging
import RealtimeNotify.Python.Uuid

/-!
# The middleware of the REST surface

`create_app` adds `SecurityHeadersMiddleware` and then `RequestLoggingMiddleware`. How
headers are read and set, and in which order the middleware is called, is Starlette's: a
parameter, with what its documentation says of it.
-/

namespace RealtimeNotify.App

open RealtimeNotify.Python JsonFormatter

/-! ## Starlette -/

structure Request (Headers : Type) where
  method : PyStr
  path : PyStr
  headers : Headers

structure Response (Headers : Type) where
  statusCode : Nat
  headers : Headers

/-- `RequestResponseEndpoint`: the response and the records that were logged on the way;
`none` is an exception. -/
abbrev Endpoint (Headers : Type) :=
  Request Headers → Option (Response Headers × List LogRecord)

/-- `dispatch` of a `BaseHTTPMiddleware`. -/
abbrev Dispatch (Headers : Type) :=
  Request Headers → Endpoint Headers → Option (Response Headers × List LogRecord)

/-- `headers.get(name)`, `headers.items()`, `headers[name] = value`, where `none` is the
`UnicodeEncodeError`, and the app with the middleware that was added to it, in this order. -/
structure Starlette (Headers : Type) where
  get : Headers → String → Option PyStr
  items : Headers → List (String × PyStr)
  setItem : Headers → String → PyStr → Option Headers
  stack : List (Dispatch Headers) → Endpoint Headers → Endpoint Headers

/-- `name.lower()`. -/
def lower (name : String) : String := String.ofList (name.toList.map Char.toLower)

/-- A text of Latin-1 characters. -/
def IsLatin1 (s : PyStr) : Prop := ∀ c ∈ s, c.val < 0x100

variable {Headers : Type}

/-- What the documentation of Starlette says: a value is Latin-1, names are lower case, a
header that is set is there once and leaves the others as they are, and the middleware that
is added last is called first. -/
structure Starlette.Documented (starlette : Starlette Headers) : Prop where
  get_latin1 : ∀ headers name value, starlette.get headers name = some value → IsLatin1 value
  setItem_latin1 : ∀ headers name value, IsLatin1 value →
    (starlette.setItem headers name value).isSome = true
  items_own : ∀ headers name value headers',
    starlette.setItem headers name value = some headers' →
    (starlette.items headers').filter (·.1 = lower name) = [(lower name, value)]
  items_others : ∀ headers name value headers',
    starlette.setItem headers name value = some headers' →
    (starlette.items headers').filter (·.1 ≠ lower name)
      = (starlette.items headers).filter (·.1 ≠ lower name)
  stack_nil : ∀ app, starlette.stack [] app = app
  stack_concat : ∀ added dispatch app request,
    starlette.stack (added ++ [dispatch]) app request
      = dispatch request (starlette.stack added app)

/-! ## The middleware -/

/-- `REQUEST_ID_HEADER` -/
def requestIdHeader : String := "X-Request-ID"

/-- What the calls around the endpoint return: `uuid.uuid4()`, the clock for the record,
`round(duration_ms, 2)`, and whether the level lets `INFO` through. -/
structure Surroundings where
  uuid4 : UUID
  now : Nat
  durationMs : PyFloat
  infoEnabled : Bool

/-- The record of `logger.info`, with the attributes that are not reserved. -/
def requestRecord (around : Surroundings) (request : Request Headers) (requestId : PyStr)
    (statusCode : Nat) : LogRecord where
  created := around.now
  levelname := "INFO"
  name := "app.request"
  message := some (request.method ++ PyStr.ofString " " ++ request.path ++ PyStr.ofString " " ++
    (intRepr statusCode).map codePoint)
  attributes := [("request_id", .str requestId), ("method", .str request.method),
    ("path", .str request.path), ("status_code", .int statusCode),
    ("duration_ms", .float around.durationMs)]
  exception := some none

def RequestLoggingMiddleware.dispatch (starlette : Starlette Headers) (around : Surroundings) :
    Dispatch Headers := fun request callNext => do
  let requestId := (starlette.get request.headers requestIdHeader).getD
    (PyStr.ofString around.uuid4.str)
  let (response, records) ← callNext request
  let headers ← starlette.setItem response.headers requestIdHeader requestId
  some ({ response with headers }, records ++
    if around.infoEnabled then [requestRecord around request requestId response.statusCode] else [])

/-- `_HEADERS` -/
def SecurityHeadersMiddleware.headers : List (String × String) :=
  [("X-Content-Type-Options", "nosniff"), ("X-Frame-Options", "DENY"),
    ("Referrer-Policy", "no-referrer"),
    ("Permissions-Policy", "geolocation=(), camera=(), microphone=()")]

/-- `for name, value in self._HEADERS.items()`. -/
def setHeaders (starlette : Starlette Headers) (values : List (String × String))
    (headers : Headers) : Option Headers :=
  values.foldlM (fun headers header =>
    starlette.setItem headers header.1 (PyStr.ofString header.2)) headers

def SecurityHeadersMiddleware.dispatch (starlette : Starlette Headers) : Dispatch Headers :=
  fun request callNext => do
    let (response, records) ← callNext request
    let headers ← setHeaders starlette SecurityHeadersMiddleware.headers response.headers
    some ({ response with headers }, records)

/-- The middleware of `create_app`, as it is added. -/
def createApp (starlette : Starlette Headers) (around : Surroundings) (app : Endpoint Headers) :
    Endpoint Headers :=
  starlette.stack [SecurityHeadersMiddleware.dispatch starlette,
    RequestLoggingMiddleware.dispatch starlette around] app

/-! ## What a header ends up as -/

theorem ofString_latin1 {s : String} (h : ∀ c ∈ s.toList, c.toNat < 0x100) :
    IsLatin1 (PyStr.ofString s) := by
  intro c hc
  obtain ⟨d, hd, rfl⟩ := List.mem_map.mp hc
  exact h d hd

theorem str_latin1 (u : UUID) : IsLatin1 (PyStr.ofString u.str) := by
  refine ofString_latin1 fun d hd => ?_
  have hhex : d = '-' ∨ d ∈ lowerHex := by
    rw [UUID.str, String.toList_ofList] at hd
    exact (mem_hyphenate hd).symm.imp_right (digitRow_lowerHex d)
  have hall : ('-' :: lowerHex).all (fun d => decide (d.toNat < 0x100)) = true := by decide
  exact of_decide_eq_true (List.all_eq_true.mp hall d (List.mem_cons.mpr hhex))

/-- A text of Latin-1 characters has no surrogates. -/
theorem IsLatin1.joined {s : PyStr} (h : IsLatin1 s) : s.joined = s := by
  induction s with
  | nil => rfl
  | cons c s ih =>
    have hc := h c List.mem_cons_self
    have hlow : isHighSurrogate c.val = false := by
      rw [isHighSurrogate, decide_eq_false_iff_not]
      omega
    rw [joined_cons hlow, ih fun d hd => h d (List.mem_cons_of_mem _ hd)]

section

variable {starlette : Starlette Headers} {headers headers' : Headers} {name : String}
  {value : PyStr}

/-- Whatever looks at other names sees no difference. -/
theorem Starlette.Documented.filter_setItem (hs : starlette.Documented)
    (h : starlette.setItem headers name value = some headers') {p : String × PyStr → Bool}
    (hp : ∀ v, p (lower name, v) = false) :
    (starlette.items headers').filter p = (starlette.items headers).filter p := by
  have hother : ∀ items : List (String × PyStr),
      items.filter p = (items.filter (·.1 ≠ lower name)).filter p := by
    intro items
    rw [List.filter_filter]
    refine List.filter_congr fun item _ => ?_
    obtain ⟨k, v⟩ := item
    by_cases hk : k = lower name
    · subst hk
      simp [hp]
    · simp [hk]
  rw [hother, hs.items_others _ _ _ _ h, ← hother]

/-- Values that are Latin-1 are set, under distinct names each once. -/
theorem Starlette.Documented.setHeaders (hs : starlette.Documented)
    {values : List (String × String)} (hlatin1 : ∀ v ∈ values, IsLatin1 (PyStr.ofString v.2))
    (hdistinct : (values.map (lower ·.1)).Nodup) (headers : Headers) : ∃ headers',
    App.setHeaders starlette values headers = some headers' ∧
    (∀ v ∈ values, (starlette.items headers').filter (·.1 = lower v.1)
      = [(lower v.1, PyStr.ofString v.2)]) ∧
    ∀ p : String × PyStr → Bool, (∀ v ∈ values, ∀ text, p (lower v.1, text) = false) →
      (starlette.items headers').filter p = (starlette.items headers).filter p := by
  induction values generalizing headers with
  | nil => exact ⟨headers, rfl, nofun, fun _ _ => rfl⟩
  | cons first values ih =>
    rw [List.map_cons, List.nodup_cons] at hdistinct
    obtain ⟨middle, hset⟩ := Option.isSome_iff_exists.mp
      (hs.setItem_latin1 headers first.1 _ (hlatin1 first List.mem_cons_self))
    obtain ⟨headers', hrest, hown, hothers⟩ :=
      ih (fun v hv => hlatin1 v (List.mem_cons_of_mem _ hv)) hdistinct.2 middle
    refine ⟨headers', ?_, fun v hv => ?_, fun p hp => ?_⟩
    · rw [App.setHeaders, List.foldlM_cons, hset]
      exact hrest
    · obtain rfl | hv := List.mem_cons.mp hv
      · -- the values after it have other names
        refine (hothers _ fun w hw text => decide_eq_false fun heq => ?_).trans
          (hs.items_own _ _ _ _ hset)
        exact hdistinct.1 (List.mem_map.mpr ⟨w, hw, heq⟩)
      · exact hown v hv
    · exact (hothers p fun v hv => hp v (List.mem_cons_of_mem _ hv)).trans
        (hs.filter_setItem hset (hp first List.mem_cons_self))

end

/-! ## Both together -/

/-- The names that the middleware sets. -/
def ownHeaders : List String :=
  lower requestIdHeader :: SecurityHeadersMiddleware.headers.map (lower ·.1)

theorem ownHeaders_nodup : ownHeaders.Nodup := by decide

/-- The outer response is the inner one, with the id and the security headers in it once,
whatever it had under their names. -/
structure HeadersSet (starlette : Starlette Headers) (requestId : PyStr)
    (inner outer : Response Headers) : Prop where
  status : outer.statusCode = inner.statusCode
  requestId : (starlette.items outer.headers).filter (·.1 = lower requestIdHeader)
    = [(lower requestIdHeader, requestId)]
  security : ∀ header ∈ SecurityHeadersMiddleware.headers,
    (starlette.items outer.headers).filter (·.1 = lower header.1)
      = [(lower header.1, PyStr.ofString header.2)]
  others : (starlette.items outer.headers).filter (·.1 ∉ ownHeaders)
    = (starlette.items inner.headers).filter (·.1 ∉ ownHeaders)

/-- The id of a request: the one it came with, or a fresh one. -/
def Request.id (starlette : Starlette Headers) (around : Surroundings)
    (request : Request Headers) : PyStr :=
  (starlette.get request.headers requestIdHeader).getD (PyStr.ofString around.uuid4.str)

variable {starlette : Starlette Headers} {around : Surroundings} {app : Endpoint Headers}
  {request : Request Headers} {inner : Response Headers} {records : List LogRecord}

theorem Request.id_latin1 (hs : starlette.Documented) (around : Surroundings)
    (request : Request Headers) : IsLatin1 (request.id starlette around) := by
  rw [Request.id]
  cases hget : starlette.get request.headers requestIdHeader with
  | none =>
    rw [Option.getD_none]
    exact str_latin1 around.uuid4
  | some value =>
    rw [Option.getD_some]
    exact hs.get_latin1 _ _ _ hget

/-- `RequestLoggingMiddleware` is around `SecurityHeadersMiddleware`. -/
theorem createApp_eq (hs : starlette.Documented) :
    createApp starlette around app request
      = RequestLoggingMiddleware.dispatch starlette around request fun request =>
          SecurityHeadersMiddleware.dispatch starlette request app := by
  have hinner : starlette.stack [SecurityHeadersMiddleware.dispatch starlette] app
      = fun request => SecurityHeadersMiddleware.dispatch starlette request app := by
    funext request
    have hstack := hs.stack_concat [] (SecurityHeadersMiddleware.dispatch starlette) app request
    rwa [hs.stack_nil] at hstack
  have hstack := hs.stack_concat [SecurityHeadersMiddleware.dispatch starlette]
    (RequestLoggingMiddleware.dispatch starlette around) app request
  rwa [hinner] at hstack

/-- The five values can be encoded, and are set. -/
theorem createApp_of_returns (hs : starlette.Documented) (around : Surroundings)
    (h : app request = some (inner, records)) :
    ∃ outer, HeadersSet starlette (request.id starlette around) inner outer ∧
      createApp starlette around app request = some (outer, records ++
        if around.infoEnabled then
          [requestRecord around request (request.id starlette around) inner.statusCode]
        else []) := by
  have hlatin1 : ∀ v ∈ SecurityHeadersMiddleware.headers, IsLatin1 (PyStr.ofString v.2) := by
    have hsmall : ∀ v ∈ SecurityHeadersMiddleware.headers, ∀ c ∈ v.2.toList, c.toNat < 0x100 := by
      simp [SecurityHeadersMiddleware.headers]
    exact fun v hv => ofString_latin1 (hsmall v hv)
  have hnodup := List.nodup_cons.mp ownHeaders_nodup
  obtain ⟨middle, hset, hown, hothers⟩ := hs.setHeaders hlatin1 hnodup.2 inner.headers
  obtain ⟨headers, hid⟩ := Option.isSome_iff_exists.mp
    (hs.setItem_latin1 middle requestIdHeader _ (Request.id_latin1 hs around request))
  have hne : ∀ v ∈ SecurityHeadersMiddleware.headers, lower requestIdHeader ≠ lower v.1 :=
    fun v hv heq => hnodup.1 (List.mem_map.mpr ⟨v, hv, heq.symm⟩)
  have hmem : ∀ v ∈ SecurityHeadersMiddleware.headers, lower v.1 ∈ ownHeaders :=
    fun v hv => List.mem_cons_of_mem _ (List.mem_map.mpr ⟨v, hv, rfl⟩)
  refine ⟨⟨inner.statusCode, headers⟩, ⟨rfl, ?_, fun v hv => ?_, ?_⟩, ?_⟩
  · exact hs.items_own middle requestIdHeader _ headers hid
  · exact (hs.filter_setItem hid fun text => decide_eq_false (hne v hv)).trans (hown v hv)
  · exact (hs.filter_setItem hid fun text => by simp [ownHeaders]).trans
      (hothers _ fun v hv text => by simp [hmem v hv])
  · rw [Request.id] at hid
    rw [createApp_eq hs, RequestLoggingMiddleware.dispatch, SecurityHeadersMiddleware.dispatch]
    simp only [h, Option.bind_eq_bind, Option.bind_some, hset, hid]
    rfl

section

variable {writer reader : Limits} {status : Nat} {requestId : PyStr}

/-- The attributes of a request are texts and numbers. -/
theorem requestRecord_extra (hwriter : writer.reads status = true) {key : String}
    {value : LogValue}
    (h : (requestRecord around request requestId status).extra? key = some value) (depth : Nat) :
    ∃ v, value.json writer depth = some v ∧
      ∀ reader depth', Limits.reads reader status = true → v.within reader depth' = true := by
  have hmem := mem_of_extra? h
  simp only [requestRecord, List.mem_cons, Prod.mk.injEq, List.not_mem_nil, or_false] at hmem
  rcases hmem with ⟨-, rfl⟩ | ⟨-, rfl⟩ | ⟨-, rfl⟩ | ⟨-, rfl⟩ | ⟨-, rfl⟩
  · exact ⟨_, LogValue.json_str _, fun _ _ _ => Json.within_str _⟩
  · exact ⟨_, LogValue.json_str _, fun _ _ _ => Json.within_str _⟩
  · exact ⟨_, LogValue.json_str _, fun _ _ _ => Json.within_str _⟩
  · refine ⟨.int status, ?_, fun _ _ hreads => ?_⟩
    · rw [LogValue.json_int, if_pos hwriter]
    · rwa [Json.within_int]
  · exact ⟨_, LogValue.json_float _, fun _ _ _ => Json.within_float _⟩

theorem requestRecord_renders (hdepth : 0 < writer.depth) (hwriter : writer.reads status = true)
    (hnow : around.now < endOfTime) :
    (requestRecord around request requestId status).Renders writer where
  created := hnow
  message := rfl
  exception := rfl
  depth := hdepth
  extra key value hextra := by
    obtain ⟨v, hv, -⟩ := requestRecord_extra hwriter hextra (writer.depth - 1)
    rw [hv]
    rfl

theorem requestRecord_readable (hdepth : 0 < reader.depth) (hwriter : writer.reads status = true)
    (hreader : reader.reads status = true) :
    (requestRecord around request requestId status).Readable writer reader where
  depth := hdepth
  extra key value v hextra hv := by
    obtain ⟨v', hv', hwithin⟩ := requestRecord_extra hwriter hextra (writer.depth - 1)
    obtain rfl := Option.some.inj (hv.symm.trans hv')
    exact hwithin _ _ hreader

/-- The members of the line of a request that are its own. -/
structure Traces (request : Request Headers) (requestId : PyStr) (status : Nat)
    (fields : Dict PyStr Json) : Prop where
  requestId : fields.get (PyStr.ofString "request_id") = some (.str requestId)
  method : fields.get (PyStr.ofString "method") = some (.str request.method.joined)
  path : fields.get (PyStr.ofString "path") = some (.str request.path.joined)
  statusCode : fields.get (PyStr.ofString "status_code") = some (.int status)

theorem Tells.traces {instanceId : String} {fields : Dict PyStr Json} (hid : IsLatin1 requestId)
    (h : Tells writer instanceId (requestRecord around request requestId status) fields) :
    Traces request requestId status fields := by
  have htext : ∀ {key text}, (requestRecord around request requestId status).extra? key
      = some (.str text) → fields.get (PyStr.ofString key) = some (.str text.joined) := by
    intro key text hextra
    obtain ⟨v, w, hv, hw, hexact⟩ := h.extra key _ hextra
    rw [LogValue.json_str] at hv
    obtain rfl := Option.some.inj hv
    rw [hw, exact_eq_str hexact]
  refine ⟨?_, htext rfl, htext rfl, ?_⟩
  · rw [htext rfl, hid.joined]
  · obtain ⟨v, w, hv, hw, hexact⟩ := h.extra "status_code" (.int status) rfl
    rw [LogValue.json_int, Option.ite_none_right_eq_some] at hv
    obtain rfl := Option.some.inj hv.2
    rw [hw, exact_eq_int hexact]

end

/-- The record of a request is one line, from which its id is read. -/
theorem requestRecord_line {writer reader : Limits} {status : Nat} (hs : starlette.Documented)
    (hwriter : 0 < writer.depth) (hreader : 0 < reader.depth)
    (hwrites : writer.reads status = true) (hreads : reader.reads status = true)
    (instanceId : String) (report : LogRecord → PyStr) (hnow : around.now < endOfTime)
    (request : Request Headers) : ∃ line fields,
      (logged writer instanceId report
        [requestRecord around request (request.id starlette around) status]).splitOn
          (codePoint '\n') = [line, []] ∧
      jsonLoads reader (.bytes (Python.asciiBytes line)) = .ok (.obj fields) ∧
      Traces request (request.id starlette around) status fields := by
  have hrendered : (format writer instanceId (requestRecord around request
      (request.id starlette around) status)).isSome = true :=
    format_isSome_iff.mpr (requestRecord_renders hwriter hwrites hnow)
  obtain ⟨line, hline⟩ := Option.isSome_iff_exists.mp hrendered
  obtain ⟨fields, hloads, htells⟩ := loads_format hline
    (requestRecord_readable hreader hwrites hreads)
  have hlines : [requestRecord around request (request.id starlette around) status].map
      (format writer instanceId) = [line].map some := congrArg (fun o => [o]) hline
  exact ⟨line, fields, splitOn_logged hlines, hloads,
    htells.traces (Request.id_latin1 hs around request)⟩

/-- A request whose endpoint raises gets no response from here. Any other gets the response
of the endpoint with its id and the security headers in it, and where `INFO` is logged one
line more, from which the same id is read. -/
theorem requests_traced (hs : starlette.Documented) {writer reader : Limits}
    (hwriter : 0 < writer.depth) (hreader : 0 < reader.depth) (instanceId : String)
    (report : LogRecord → PyStr) (around : Surroundings) (hnow : around.now < endOfTime)
    (app : Endpoint Headers) (request : Request Headers) :
    (app request = none → createApp starlette around app request = none) ∧
    ∀ inner records, app request = some (inner, records) →
      writer.reads inner.statusCode = true → reader.reads inner.statusCode = true →
      ∃ outer own, createApp starlette around app request = some (outer, records ++ own) ∧
        HeadersSet starlette (request.id starlette around) inner outer ∧
        (around.infoEnabled = false → own = []) ∧
        (around.infoEnabled = true → ∃ line fields,
          (logged writer instanceId report own).splitOn (codePoint '\n') = [line, []] ∧
          jsonLoads reader (.bytes (Python.asciiBytes line)) = .ok (.obj fields) ∧
          Traces request (request.id starlette around) inner.statusCode fields) := by
  constructor
  · intro happ
    rw [createApp_eq hs, RequestLoggingMiddleware.dispatch, SecurityHeadersMiddleware.dispatch,
      happ]
    rfl
  · intro inner records happ hwrites hreads
    obtain ⟨outer, hset, hserved⟩ := createApp_of_returns hs around happ
    refine ⟨outer, _, hserved, hset, fun hinfo => ?_, fun hinfo => ?_⟩
    · rw [hinfo]
      rfl
    · rw [hinfo, if_pos rfl]
      exact requestRecord_line hs hwriter hreader hwrites hreads instanceId report hnow request

/-! ## A Starlette of lists -/

/-- `s.encode("latin-1")`; `none` is the `UnicodeEncodeError`. -/
def encodeLatin1 (s : PyStr) : Option Bytes :=
  s.mapM fun c => if c.val < 0x100 then some (UInt8.ofNat c.val) else none

/-- `b.decode("latin-1")`. -/
def decodeLatin1 (b : Bytes) : PyStr := b.map fun byte => Fin.ofNat 0x110000 byte.toNat

/-- The headers of an ASGI message: names are lower case and may repeat. -/
abbrev RawHeaders := List (String × Bytes)

namespace RawHeaders

/-- The first of that name. -/
def get (headers : RawHeaders) (name : String) : Option PyStr :=
  (headers.find? (·.1 = lower name)).map fun header => decodeLatin1 header.2

def items (headers : RawHeaders) : List (String × PyStr) :=
  headers.map fun header => (header.1, decodeLatin1 header.2)

/-- The value stands where the first of the name stood, or at the end, and the others of
the name go. -/
def put (headers : RawHeaders) (key : String) (value : Bytes) : RawHeaders :=
  match headers with
  | [] => [(key, value)]
  | header :: rest =>
      if header.1 = key then (key, value) :: rest.filter (·.1 ≠ key)
      else header :: put rest key value

def setItem (headers : RawHeaders) (name : String) (value : PyStr) : Option RawHeaders :=
  (encodeLatin1 value).map (headers.put (lower name))

end RawHeaders

def plainStarlette : Starlette RawHeaders where
  get := RawHeaders.get
  items := RawHeaders.items
  setItem := RawHeaders.setItem
  stack added app := added.foldl (fun app dispatch request => dispatch request app) app

theorem encodeLatin1_isSome {s : PyStr} (h : IsLatin1 s) : (encodeLatin1 s).isSome = true := by
  induction s with
  | nil => rfl
  | cons c s ih =>
    obtain ⟨b, hb⟩ := Option.isSome_iff_exists.mp (ih fun d hd => h d (List.mem_cons_of_mem _ hd))
    rw [encodeLatin1] at hb
    rw [encodeLatin1, List.mapM_cons, if_pos (h c List.mem_cons_self), hb]
    rfl

theorem decode_encodeLatin1 {s : PyStr} {b : Bytes} (h : encodeLatin1 s = some b) :
    decodeLatin1 b = s := by
  induction s generalizing b with
  | nil =>
    cases h
    rfl
  | cons c s ih =>
    simp only [encodeLatin1, List.mapM_cons, Option.bind_eq_bind, Option.bind_eq_some_iff,
      Option.ite_none_right_eq_some, Option.pure_def, Option.some.injEq] at h
    obtain ⟨-, ⟨hc, rfl⟩, b', hb', rfl⟩ := h
    have hbyte : (UInt8.ofNat c.val).toNat = c.val := by
      rw [UInt8.toNat_ofNat']
      omega
    have hback : Fin.ofNat 0x110000 c.val = c := Fin.ofNat_val_eq_self c
    rw [decodeLatin1, List.map_cons, hbyte, hback]
    exact congrArg (c :: ·) (ih hb')

theorem decodeLatin1_latin1 (b : Bytes) : IsLatin1 (decodeLatin1 b) := by
  intro c hc
  obtain ⟨byte, -, rfl⟩ := List.mem_map.mp hc
  have hlt := byte.toNat_lt
  have hval : (Fin.ofNat 0x110000 byte.toNat).val = byte.toNat := Nat.mod_eq_of_lt (by omega)
  omega

namespace RawHeaders

variable {key : String} {value : Bytes}

/-- Of its own name there is one. -/
theorem filter_put_self (headers : RawHeaders) :
    (headers.put key value).filter (·.1 = key) = [(key, value)] := by
  induction headers with
  | nil => simp [put]
  | cons header rest ih =>
    obtain ⟨k, v⟩ := header
    by_cases hk : k = key
    · simp [put, hk, List.filter_filter]
    · simp [put, hk, ih]

/-- Others are not touched. -/
theorem filter_put_ne (headers : RawHeaders) :
    (headers.put key value).filter (·.1 ≠ key) = headers.filter (·.1 ≠ key) := by
  induction headers with
  | nil => simp [put]
  | cons header rest ih =>
    obtain ⟨k, v⟩ := header
    by_cases hk : k = key
    · simp [put, hk, List.filter_filter]
    · rw [put, if_neg hk, List.filter_cons, List.filter_cons, ih]

theorem filter_items (p : String → Bool) (headers : RawHeaders) :
    headers.items.filter (fun item => p item.1) = items (headers.filter fun h => p h.1) := by
  rw [items, List.filter_map]
  rfl

end RawHeaders

theorem plainStarlette_documented : plainStarlette.Documented where
  get_latin1 headers name value h := by
    obtain ⟨header, -, rfl⟩ := Option.map_eq_some_iff.mp h
    exact decodeLatin1_latin1 _
  setItem_latin1 headers name value h := by
    show ((encodeLatin1 value).map _).isSome = true
    rw [Option.isSome_map]
    exact encodeLatin1_isSome h
  items_own headers name value headers' h := by
    obtain ⟨b, hb, rfl⟩ := Option.map_eq_some_iff.mp h
    refine (RawHeaders.filter_items (· = lower name) _).trans ?_
    rw [RawHeaders.filter_put_self, RawHeaders.items, List.map_singleton, decode_encodeLatin1 hb]
  items_others headers name value headers' h := by
    obtain ⟨b, hb, rfl⟩ := Option.map_eq_some_iff.mp h
    refine (RawHeaders.filter_items (· ≠ lower name) _).trans
      (.trans ?_ (RawHeaders.filter_items (· ≠ lower name) headers).symm)
    rw [RawHeaders.filter_put_ne]
  stack_nil app := rfl
  stack_concat added dispatch app request := by
    show (added ++ [dispatch]).foldl _ app request = _
    rw [List.foldl_append]
    rfl

def pingRequest : Request RawHeaders := ⟨PyStr.ofString "GET", PyStr.ofString "/ping", []⟩

/-- An endpoint that sets headers of the middleware itself, one of them twice. -/
def framedResponse : Response RawHeaders where
  statusCode := 200
  headers := [("x-frame-options", [65]), ("content-type", [66]), ("x-frame-options", [67]),
    ("x-request-id", [68])]

def pingSurroundings : Surroundings := ⟨⟨8, by decide⟩, 0, .decimal false 15 (-1), true⟩

theorem requests_traced_framed : ∃ outer own line fields,
    createApp plainStarlette pingSurroundings (fun _ => some (framedResponse, [])) pingRequest
      = some (outer, own) ∧
    HeadersSet plainStarlette (pingRequest.id plainStarlette pingSurroundings) framedResponse
      outer ∧
    (logged ⟨2, some 4300⟩ "instance-1" (fun _ => []) own).splitOn (codePoint '\n')
      = [line, []] ∧
    jsonLoads ⟨2, some 4300⟩ (.bytes (Python.asciiBytes line)) = .ok (.obj fields) ∧
    Traces pingRequest (pingRequest.id plainStarlette pingSurroundings) 200 fields := by
  have hdepth : 0 < (⟨2, some 4300⟩ : Limits).depth := by decide
  obtain ⟨outer, own, hserved, hset, -, hlogged⟩ :=
    (requests_traced plainStarlette_documented hdepth hdepth "instance-1" (fun _ => [])
      pingSurroundings (by decide) (fun _ => some (framedResponse, [])) pingRequest).2
      framedResponse [] rfl (by decide) (by decide)
  obtain ⟨line, fields, hsplit, hloads, htraces⟩ := hlogged rfl
  exact ⟨outer, own, line, fields, hserved, hset, hsplit, hloads, htraces⟩

end RealtimeNotify.App
