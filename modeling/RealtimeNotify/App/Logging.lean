import RealtimeNotify.Python.Calendar
import RealtimeNotify.Python.JsonRoundtrip

/-!
# `JsonFormatter`

A log record becomes one line of JSON, or the formatter raises: `getMessage` and `str` run
code of the record's, and `json` refuses keys that are no scalars, containers that stand
inside themselves and what is beyond its limits. Where no record of a stream raises, its
lines come apart again, and each says what its record said.
-/

namespace RealtimeNotify.App

open RealtimeNotify.Python

/-- A key of a dict. `other` is a key of another type, such as a tuple. -/
inductive LogKey where
  | null
  | bool (b : Bool)
  | int (n : Int)
  | float (x : PyFloat)
  | str (s : PyStr)
  | other

/-- The value of an attribute. `other` is an object that `json` has no text for, with what
`str` returns for it, if it does not raise; `circular` is one of the containers around it. -/
inductive LogValue where
  | null
  | bool (b : Bool)
  | int (n : Int)
  | float (x : PyFloat)
  | str (s : PyStr)
  | arr (items : List LogValue)
  | obj (fields : List (LogKey × LogValue))
  | other (str : Option PyStr)
  | circular

/-- The text of a key in an object; `none` is an exception. -/
def LogKey.text (limits : Limits) : LogKey → Option PyStr
  | .null => some (jsonDumps .null)
  | .bool b => some (jsonDumps (.bool b))
  | .int n => if limits.reads n then some (jsonDumps (.int n)) else none
  | .float x => some (jsonDumps (.float x))
  | .str s => some s
  | .other => none

mutual

/-- What `json.dumps(value, default=str)` makes the text of, with so many levels left of the
recursion limit; `none` is an exception. -/
def LogValue.json (limits : Limits) : (depth : Nat) → LogValue → Option Json
  | _, .null => some .null
  | _, .bool b => some (.bool b)
  | _, .int n => if limits.reads n then some (.int n) else none
  | _, .float x => some (.float x)
  | _, .str s => some (.str s)
  | depth + 1, .arr items => (jsonItems limits depth items).map Json.arr
  | depth + 1, .obj fields => (jsonFields limits depth fields).map Json.obj
  | _ + 1, .other str => str.map Json.str
  | 0, .arr _ | 0, .obj _ | 0, .other _ | _, .circular => none

def jsonItems (limits : Limits) (depth : Nat) : List LogValue → Option (List Json)
  | [] => some []
  | v :: vs => do
      let w ← v.json limits depth
      let ws ← jsonItems limits depth vs
      some (w :: ws)

def jsonFields (limits : Limits) (depth : Nat) :
    List (LogKey × LogValue) → Option (List (PyStr × Json))
  | [] => some []
  | (k, v) :: fs => do
      let key ← k.text limits
      let value ← v.json limits depth
      let gs ← jsonFields limits depth fs
      some ((key, value) :: gs)

end

section

variable {limits : Limits} {depth : Nat}

@[simp] theorem LogValue.json_str (s : PyStr) :
    (LogValue.str s).json limits depth = some (.str s) := by cases depth <;> rfl

@[simp] theorem LogValue.json_float (x : PyFloat) :
    (LogValue.float x).json limits depth = some (.float x) := by cases depth <;> rfl

@[simp] theorem LogValue.json_int (n : Int) : (LogValue.int n).json limits depth
    = if limits.reads n then some (.int n) else none := by cases depth <;> rfl

end

/-- Of a `logging.LogRecord` the moment in microseconds, what `getMessage()` returns,
`__dict__`, and, where there is an `exc_info`, the text of `formatException`. That one of the
calls raises is `none`. -/
structure LogRecord where
  created : Nat
  levelname : String
  name : String
  message : Option PyStr
  attributes : Dict String LogValue
  exception : Option (Option PyStr)

/-- `_RESERVED_ATTRS`: what every record has in its `__dict__`. -/
def reservedAttrs : List String :=
  ["name", "msg", "args", "levelname", "levelno", "pathname", "filename", "module", "exc_info",
    "exc_text", "stack_info", "lineno", "funcName", "created", "msecs", "relativeCreated",
    "thread", "threadName", "processName", "process"]

namespace JsonFormatter

/-- `datetime.fromtimestamp(record.created, tz=timezone.utc)`, printed. Years have four
digits. -/
def timestamp (record : LogRecord) : Option String :=
  if record.created < endOfTime then some (isoformatUtc record.created) else none

/-- The `entry` to begin with. -/
def standard (instanceId : String) (record : LogRecord) (timestamp : String) (message : PyStr) :
    Dict String LogValue :=
  [("timestamp", .str (PyStr.ofString timestamp)),
    ("level", .str (PyStr.ofString record.levelname)),
    ("logger", .str (PyStr.ofString record.name)),
    ("instance_id", .str (PyStr.ofString instanceId)),
    ("message", .str message)]

/-- `for key, value in record.__dict__.items()`. -/
def addExtras (entry : Dict String LogValue) : Dict String LogValue → Dict String LogValue
  | [] => entry
  | (key, value) :: rest =>
      addExtras (if key ∉ reservedAttrs ∧ key ∉ entry.keys then entry.set key value
        else entry) rest

/-- `if record.exc_info`. -/
def addException (entry : Dict String LogValue) : Option PyStr → Dict String LogValue
  | none => entry
  | some text => entry.set "exception" (.str text)

def entry (instanceId : String) (record : LogRecord) : Option (Dict String LogValue) := do
  let timestamp ← timestamp record
  let message ← record.message
  let entry := addExtras (standard instanceId record timestamp message) record.attributes
  let exception ← record.exception
  some (addException entry exception)

/-- An `entry` as a value: its keys are texts. -/
def object (entry : Dict String LogValue) : LogValue :=
  .obj (entry.map fun f => (.str (PyStr.ofString f.1), f.2))

/-- `limits` are those of the process that writes. -/
def format (limits : Limits) (instanceId : String) (record : LogRecord) : Option PyStr := do
  let entry ← entry instanceId record
  let value ← (object entry).json limits limits.depth
  some (jsonDumps value)

end JsonFormatter

/-- `StreamHandler.emit`: the line and its terminator. Where the formatter raises, `report`
is what `handleError` prints to the same stream; a `RecursionError` goes to the caller and
prints nothing. -/
def emit (limits : Limits) (instanceId : String) (report : LogRecord → PyStr)
    (record : LogRecord) : PyStr :=
  match JsonFormatter.format limits instanceId record with
  | some line => line ++ [codePoint '\n']
  | none => report record

/-- What the handler has written to the stream. -/
def logged (limits : Limits) (instanceId : String) (report : LogRecord → PyStr)
    (records : List LogRecord) : PyStr :=
  records.flatMap (emit limits instanceId report)

/-! ## The entry -/

namespace JsonFormatter

variable {instanceId : String} {record : LogRecord} {key : String} {e : Dict String LogValue}

/-- No attribute replaces one of these. -/
def standardKeys : List String := ["timestamp", "level", "logger", "instance_id", "message"]

theorem keys_standard {timestamp : String} {message : PyStr} :
    (standard instanceId record timestamp message).keys = standardKeys := rfl

theorem nodup_standard (timestamp : String) (message : PyStr) :
    (standard instanceId record timestamp message).keys.Nodup := by
  rw [keys_standard]
  decide

theorem mem_standardKeys {timestamp : String} {message : PyStr} {v : LogValue}
    (h : (standard instanceId record timestamp message).get key = some v) :
    key ∈ standardKeys := by
  rw [← keys_standard, Dict.keys]
  exact List.mem_map.mpr ⟨_, Dict.mem_of_get h, rfl⟩

/-- What is there stays, and what is new is an attribute that is not reserved. -/
theorem get_addExtras (d attributes : Dict String LogValue) (key : String) :
    (addExtras d attributes).get key
      = (d.get key).or (if key ∈ reservedAttrs then none else attributes.get key) := by
  induction attributes generalizing d with
  | nil => simp [addExtras]
  | cons a rest ih =>
    obtain ⟨k, v⟩ := a
    rw [addExtras, ih]
    by_cases hkey : k = key
    · subst hkey
      -- the first attribute of a name decides: it is reserved, it is there already, or it enters
      by_cases hreserved : k ∈ reservedAttrs
      · simp [hreserved]
      · by_cases hmem : k ∈ d.keys
        · obtain ⟨w, hw⟩ := Dict.get_of_mem_keys hmem
          simp [hmem, hw]
        · have hnone : d.get k = none := by
            rw [Option.eq_none_iff_forall_ne_some]
            exact fun w hw => hmem (List.mem_map.mpr ⟨_, Dict.mem_of_get hw, rfl⟩)
          simp [hreserved, hmem, hnone, Dict.get]
    · have hsame : (if k ∉ reservedAttrs ∧ k ∉ d.keys then d.set k v else d).get key
          = d.get key := by
        split
        · exact Dict.get_set_ne (Ne.symm hkey)
        · rfl
      rw [hsame]
      simp [Dict.get, hkey]

theorem nodup_addExtras {d : Dict String LogValue} (h : d.keys.Nodup)
    (attributes : Dict String LogValue) : (addExtras d attributes).keys.Nodup := by
  induction attributes generalizing d with
  | nil => exact h
  | cons a rest ih =>
    obtain ⟨k, v⟩ := a
    rw [addExtras]
    split
    · exact ih (Dict.nodup_set h)
    · exact ih h

/-- What the three calls returned, and what was made of it. -/
theorem entry_eq_some : entry instanceId record = some e ↔
    record.created < endOfTime ∧ ∃ message exception, record.message = some message ∧
      record.exception = some exception ∧
      e = addException (addExtras (standard instanceId record (isoformatUtc record.created) message)
        record.attributes) exception := by
  simp only [entry, timestamp, Option.bind_eq_bind, Option.bind_eq_some_iff,
    Option.ite_none_right_eq_some, Option.some.injEq]
  constructor
  · rintro ⟨-, ⟨hcreated, rfl⟩, message, hmessage, exception, hexception, rfl⟩
    exact ⟨hcreated, message, exception, hmessage, hexception, rfl⟩
  · rintro ⟨hcreated, message, exception, hmessage, hexception, rfl⟩
    exact ⟨_, ⟨hcreated, rfl⟩, message, hmessage, exception, hexception, rfl⟩

theorem nodup_entry (h : entry instanceId record = some e) : e.keys.Nodup := by
  obtain ⟨-, message, exception, -, -, rfl⟩ := entry_eq_some.mp h
  have hstandard : (standard instanceId record _ message).keys.Nodup :=
    nodup_standard (isoformatUtc record.created) message
  have hadd := nodup_addExtras hstandard record.attributes
  cases exception with
  | none => exact hadd
  | some text => exact Dict.nodup_set hadd

/-- The traceback, then the standard fields, then the attributes. -/
theorem get_entry (h : entry instanceId record = some e)
    (hkey : key = "exception" → record.exception = some none) : ∃ message,
    record.message = some message ∧ e.get key
      = ((standard instanceId record (isoformatUtc record.created) message).get key).or
        (if key ∈ reservedAttrs then none else record.attributes.get key) := by
  obtain ⟨-, message, exception, hmessage, hexception, rfl⟩ := entry_eq_some.mp h
  refine ⟨message, hmessage, ?_⟩
  cases exception with
  | none => exact get_addExtras _ _ _
  | some text =>
    have hne : key ≠ "exception" := fun heq => by simp [hexception] at hkey; exact hkey heq
    exact (Dict.get_set_ne hne).trans (get_addExtras _ _ _)

theorem get_entry_exception (h : entry instanceId record = some e) {text : PyStr}
    (htext : record.exception = some (some text)) : e.get "exception" = some (.str text) := by
  obtain ⟨-, message, exception, -, hexception, rfl⟩ := entry_eq_some.mp h
  obtain rfl := Option.some.inj (htext.symm.trans hexception)
  exact Dict.get_set_self

end JsonFormatter

open JsonFormatter

/-- The attribute that the entry has under a name: none that is reserved or named like a
field of the entry. -/
def LogRecord.extra? (record : LogRecord) (key : String) : Option LogValue :=
  if key ∈ reservedAttrs ∨ key ∈ standardKeys ∨ key = "exception" ∧ record.exception ≠ some none
  then none else record.attributes.get key

namespace JsonFormatter

variable {instanceId : String} {record : LogRecord} {key : String} {e : Dict String LogValue}

theorem mem_of_extra? {value : LogValue} (h : record.extra? key = some value) :
    (key, value) ∈ record.attributes := by
  rw [LogRecord.extra?, Option.ite_none_left_eq_some] at h
  exact Dict.mem_of_get h.2

theorem get_entry_standard (h : entry instanceId record = some e) {message : PyStr}
    (hmessage : record.message = some message) {v : LogValue}
    (hv : (standard instanceId record (isoformatUtc record.created) message).get key = some v) :
    e.get key = some v := by
  have hne : key ≠ "exception" := by
    rintro rfl
    cases hv
  obtain ⟨message', hmessage', hget⟩ := get_entry h fun heq => absurd heq hne
  obtain rfl := Option.some.inj (hmessage.symm.trans hmessage')
  rw [hget, hv, Option.some_or]

theorem get_entry_extra (h : entry instanceId record = some e) {value : LogValue}
    (hv : record.extra? key = some value) : e.get key = some value := by
  rw [LogRecord.extra?, Option.ite_none_left_eq_some] at hv
  obtain ⟨hkey, hvalue⟩ := hv
  simp only [not_or, not_and, not_not] at hkey
  obtain ⟨hreserved, hstandard, hexception⟩ := hkey
  obtain ⟨message, -, hget⟩ := get_entry h hexception
  have hnone : (standard instanceId record (isoformatUtc record.created) message).get key
      = none := by
    rw [Option.eq_none_iff_forall_ne_some]
    exact fun v hv => hstandard (mem_standardKeys hv)
  rw [hget, hnone, Option.none_or, if_neg hreserved, hvalue]

/-- Where a member of the entry comes from. -/
theorem entry_cases (h : entry instanceId record = some e) {v : LogValue}
    (hv : e.get key = some v) :
    (key = "exception" ∧ ∃ text, record.exception = some (some text) ∧ v = .str text) ∨
    (key ∈ standardKeys ∧ ∃ text, v = .str text) ∨ record.extra? key = some v := by
  by_cases hkey : key = "exception" → record.exception = some none
  · obtain ⟨message, -, hget⟩ := get_entry h hkey
    rw [hget, Option.or_eq_some_iff] at hv
    rcases hv with hv | ⟨hnone, hv⟩
    · have hmem := Dict.mem_of_get hv
      refine .inr (.inl ⟨mem_standardKeys hv, ?_⟩)
      simp only [standard, List.mem_cons, Prod.mk.injEq, List.not_mem_nil, or_false] at hmem
      rcases hmem with ⟨-, rfl⟩ | ⟨-, rfl⟩ | ⟨-, rfl⟩ | ⟨-, rfl⟩ | ⟨-, rfl⟩ <;> exact ⟨_, rfl⟩
    · have hstandard : key ∉ standardKeys := fun hmem => by
        obtain ⟨w, hw⟩ := Dict.get_of_mem_keys (keys_standard ▸ hmem)
        rw [hnone] at hw
        cases hw
      rw [Option.ite_none_left_eq_some] at hv
      refine .inr (.inr ?_)
      rw [LogRecord.extra?, if_neg, hv.2]
      simp only [not_or, not_and, not_not]
      exact ⟨hv.1, hstandard, hkey⟩
  · obtain ⟨rfl, hsome⟩ : key = "exception" ∧ record.exception ≠ some none := by
      simpa only [Classical.not_imp] using hkey
    obtain ⟨-, message, exception, -, hexception, -⟩ := entry_eq_some.mp h
    cases exception with
    | none => exact absurd hexception hsome
    | some text =>
      rw [get_entry_exception h hexception] at hv
      exact .inl ⟨rfl, text, hexception, (Option.some.inj hv).symm⟩

/-! ## The line -/

/-- What `json` makes of the values of an entry. -/
def jsonValues (limits : Limits) (depth : Nat) : Dict String LogValue → Option (Dict String Json)
  | [] => some []
  | (key, value) :: entry => do
      let v ← value.json limits depth
      let d ← jsonValues limits depth entry
      some ((key, v) :: d)

/-- The object of texts. -/
def jsonObject (d : Dict String Json) : Json :=
  .obj (d.map fun f => (PyStr.ofString f.1, f.2))

variable {limits : Limits} {depth : Nat} {d : Dict String Json} {line : PyStr}

/-- The keys of an entry are written as they are. -/
theorem json_object (e : Dict String LogValue) :
    (object e).json limits (depth + 1) = (jsonValues limits depth e).map jsonObject := by
  have hfields : ∀ e : Dict String LogValue,
      jsonFields limits depth (e.map fun f => (.str (PyStr.ofString f.1), f.2))
        = (jsonValues limits depth e).map fun d => d.map fun f => (PyStr.ofString f.1, f.2) := by
    intro e
    induction e with
    | nil => rfl
    | cons f e ih =>
      rw [List.map_cons, jsonFields, jsonValues, ih]
      cases f.2.json limits depth <;> cases jsonValues limits depth e <;> rfl
  rw [object, LogValue.json, hfields, Option.map_map]
  rfl

theorem jsonValues_cons {f : String × LogValue} :
    jsonValues limits depth (f :: e) = some d ↔ ∃ v d', f.2.json limits depth = some v ∧
      jsonValues limits depth e = some d' ∧ d = (f.1, v) :: d' := by
  simp only [jsonValues, Option.bind_eq_bind, Option.bind_eq_some_iff, Option.some.injEq]
  constructor
  · rintro ⟨v, hv, d', hd', rfl⟩
    exact ⟨v, d', hv, hd', rfl⟩
  · rintro ⟨v, d', hv, hd', rfl⟩
    exact ⟨v, hv, d', hd', rfl⟩

theorem keys_jsonValues (h : jsonValues limits depth e = some d) : d.keys = e.keys := by
  induction e generalizing d with
  | nil =>
    cases h
    rfl
  | cons f e ih =>
    obtain ⟨v, d', -, hd', rfl⟩ := jsonValues_cons.mp h
    exact congrArg (f.1 :: ·) (ih hd')

theorem get_jsonValues (h : jsonValues limits depth e = some d) (key : String) :
    d.get key = (e.get key).bind (·.json limits depth) := by
  induction e generalizing d with
  | nil =>
    cases h
    rfl
  | cons f e ih =>
    obtain ⟨k, value⟩ := f
    obtain ⟨v, d', hv, hd', rfl⟩ := jsonValues_cons.mp h
    by_cases hk : k = key
    · simp only [Dict.get, hk, if_true, Option.bind_some, hv]
    · simp only [Dict.get, hk, if_false, ih hd']

/-- An entry is written if its values are. -/
theorem isSome_jsonValues : (jsonValues limits depth e).isSome = true ↔
    ∀ f ∈ e, (f.2.json limits depth).isSome = true := by
  induction e with
  | nil => simp [jsonValues]
  | cons f e ih =>
    rw [List.forall_mem_cons, ← ih, jsonValues]
    cases f.2.json limits depth <;> cases jsonValues limits depth e <;> simp

theorem format_eq_some : format limits instanceId record = some line ↔ ∃ e depth d,
    entry instanceId record = some e ∧ limits.depth = depth + 1 ∧
      jsonValues limits depth e = some d ∧ line = jsonDumps (jsonObject d) := by
  simp only [format, Option.bind_eq_bind, Option.bind_eq_some_iff, Option.some.injEq]
  constructor
  · rintro ⟨e, he, value, hvalue, rfl⟩
    cases hdepth : limits.depth with
    | zero =>
      rw [hdepth] at hvalue
      cases hvalue
    | succ depth =>
      rw [hdepth, json_object, Option.map_eq_some_iff] at hvalue
      obtain ⟨d, hd, rfl⟩ := hvalue
      exact ⟨e, depth, d, he, rfl, hd, rfl⟩
  · rintro ⟨e, depth, d, he, hdepth, hd, rfl⟩
    exact ⟨e, he, _, by rw [hdepth, json_object, hd]; rfl, rfl⟩

end JsonFormatter

/-- What the formatter asks of a record. -/
structure LogRecord.Renders (limits : Limits) (record : LogRecord) : Prop where
  created : record.created < endOfTime
  message : record.message.isSome = true
  exception : record.exception.isSome = true
  depth : 0 < limits.depth
  extra : ∀ key value, record.extra? key = some value →
    (value.json limits (limits.depth - 1)).isSome = true

/-- What the reader asks of a record: that what was written nests as deep as it allows inside
the entry, and that the integers can be read. -/
structure LogRecord.Readable (writer reader : Limits) (record : LogRecord) : Prop where
  depth : 0 < reader.depth
  extra : ∀ key value v, record.extra? key = some value →
    value.json writer (writer.depth - 1) = some v → v.within reader (reader.depth - 1) = true

/-- What an object read from the log says of a record, and that it says no more. -/
structure Tells (writer : Limits) (instanceId : String) (record : LogRecord)
    (fields : Dict PyStr Json) : Prop where
  timestamp : fields.get (PyStr.ofString "timestamp")
    = some (.str (PyStr.ofString (isoformatUtc record.created)))
  level : fields.get (PyStr.ofString "level") = some (.str (PyStr.ofString record.levelname))
  logger : fields.get (PyStr.ofString "logger") = some (.str (PyStr.ofString record.name))
  instanceId : fields.get (PyStr.ofString "instance_id")
    = some (.str (PyStr.ofString instanceId))
  message : fields.get (PyStr.ofString "message")
    = record.message.map fun message => .str message.joined
  exception : ∀ text, record.exception = some (some text) →
    fields.get (PyStr.ofString "exception") = some (.str text.joined)
  extra : ∀ key value, record.extra? key = some value → ∃ v w,
    value.json writer (writer.depth - 1) = some v ∧
      fields.get (PyStr.ofString key) = some w ∧ w.exact = v.joined.exact
  only : ∀ k w, fields.get k = some w → ∃ key, k = PyStr.ofString key ∧
    (key ∈ standardKeys ∨ (record.extra? key).isSome = true ∨
      (key = "exception" ∧ ∃ text, record.exception = some (some text)))

variable {writer reader : Limits} {instanceId : String} {record : LogRecord} {line : PyStr}

/-- A record that meets this, and no other, has a line. -/
theorem format_isSome_iff :
    (format writer instanceId record).isSome = true ↔ record.Renders writer := by
  rw [Option.isSome_iff_exists]
  constructor
  · rintro ⟨line, hline⟩
    obtain ⟨e, depth, d, he, hdepth, hd, -⟩ := format_eq_some.mp hline
    obtain ⟨hcreated, message, exception, hmessage, hexception, -⟩ := entry_eq_some.mp he
    refine ⟨hcreated, by rw [hmessage]; rfl, by rw [hexception]; rfl, by omega, ?_⟩
    intro key value hextra
    rw [hdepth]
    have hvalues : (jsonValues writer depth e).isSome = true := by
      rw [hd]
      rfl
    exact isSome_jsonValues.mp hvalues _ (Dict.mem_of_get (get_entry_extra he hextra))
  · rintro ⟨hcreated, hmessage, hexception, hdepth, hextra⟩
    obtain ⟨message, hmessage⟩ := Option.isSome_iff_exists.mp hmessage
    obtain ⟨exception, hexception⟩ := Option.isSome_iff_exists.mp hexception
    obtain ⟨depth, hdepth⟩ := Nat.exists_eq_succ_of_ne_zero (Nat.pos_iff_ne_zero.mp hdepth)
    rw [hdepth] at hextra
    obtain ⟨e, he⟩ : ∃ e, entry instanceId record = some e :=
      ⟨_, entry_eq_some.mpr ⟨hcreated, message, exception, hmessage, hexception, rfl⟩⟩
    have hvalues : (jsonValues writer depth e).isSome = true := by
      refine isSome_jsonValues.mpr fun f hf => ?_
      rcases entry_cases he (Dict.get_of_mem (nodup_entry he) hf) with
        ⟨-, text, -, hv⟩ | ⟨-, text, hv⟩ | hv
      · rw [hv, LogValue.json_str, Option.isSome_some]
      · rw [hv, LogValue.json_str, Option.isSome_some]
      · exact hextra f.1 f.2 hv
    obtain ⟨d, hd⟩ := Option.isSome_iff_exists.mp hvalues
    exact ⟨_, format_eq_some.mpr ⟨_, depth, d, he, hdepth, hd, rfl⟩⟩

/-- The keys are read as they are, the values each by itself. -/
theorem joined_jsonObject {d : Dict String Json} (h : d.keys.Nodup) :
    (jsonObject d).joined = jsonObject (d.map fun f => (f.1, f.2.joined)) := by
  have hfields : ∀ d : Dict String Json,
      joinedFields (d.map fun f => (PyStr.ofString f.1, f.2))
        = (d.map fun f => (f.1, f.2.joined)).map fun f => (PyStr.ofString f.1, f.2) := by
    intro d
    induction d with
    | nil => rfl
    | cons f d ih =>
      rw [List.map_cons, joinedFields, ih, PyStr.joined_ofString]
      rfl
  rw [jsonObject, jsonObject, Json.joined, hfields]
  refine congrArg Json.obj (collect_of_nodup (d := []) ?_)
  simpa [Dict.keys, Function.comp_def, List.nodup_map_iff PyStr.ofString_injective] using
    h.map PyStr.ofString_injective

/-- A member of the entry is read from its line. -/
theorem get_of_line {d : Dict String Json} {fields : Dict PyStr Json} {key : String} {v : Json}
    (h : exactFields fields = exactFields
      ((d.map fun f => (f.1, f.2.joined)).map fun f => (PyStr.ofString f.1, f.2)))
    (hv : d.get key = some v) :
    ∃ w, Dict.get fields (PyStr.ofString key) = some w ∧ w.exact = v.joined.exact := by
  refine get_of_exactFields h ?_
  rw [Dict.get_map_keys PyStr.ofString_injective, Dict.get_map_values, hv, Option.map_some]

/-- A line nests as deep as the reader allows. -/
theorem LogRecord.Readable.within (h : record.Readable writer reader) {e : Dict String LogValue}
    (he : entry instanceId record = some e) {depth : Nat} (hdepth : writer.depth = depth + 1)
    {d : Dict String Json} (hd : jsonValues writer depth e = some d) :
    (jsonObject d).within reader reader.depth = true := by
  obtain ⟨depth', hdepth'⟩ := Nat.exists_eq_succ_of_ne_zero (Nat.pos_iff_ne_zero.mp h.depth)
  have hextra := h.extra
  rw [hdepth, hdepth'] at hextra
  rw [hdepth', jsonObject, Json.within, withinFields_iff]
  intro f hf
  obtain ⟨⟨key, v⟩, hmem, rfl⟩ := List.mem_map.mp hf
  have hnodup : d.keys.Nodup := keys_jsonValues hd ▸ nodup_entry he
  have hget := get_jsonValues hd key
  rw [Dict.get_of_mem hnodup hmem] at hget
  obtain ⟨value, hvalue, hv⟩ := Option.bind_eq_some_iff.mp hget.symm
  have htext : ∀ text, LogValue.json writer depth (.str text) = some v →
      v.within reader depth' = true := by
    intro text htext
    rw [LogValue.json_str] at htext
    rw [← Option.some.inj htext, Json.within_str]
  rcases entry_cases he hvalue with ⟨-, text, -, rfl⟩ | ⟨-, text, rfl⟩ | hmine
  · exact htext text hv
  · exact htext text hv
  · exact hextra key value v hmine hv

/-- What stands in the entry is written, and read from the line. -/
theorem get_of_entry {e : Dict String LogValue} {depth : Nat} {d : Dict String Json}
    {fields : Dict PyStr Json} {key : String} {value : LogValue}
    (hd : jsonValues writer depth e = some d)
    (h : exactFields fields = exactFields
      ((d.map fun f => (f.1, f.2.joined)).map fun f => (PyStr.ofString f.1, f.2)))
    (hvalue : e.get key = some value) :
    ∃ v w, value.json writer depth = some v ∧
      Dict.get fields (PyStr.ofString key) = some w ∧ w.exact = v.joined.exact := by
  have hvalues : (jsonValues writer depth e).isSome = true := by
    rw [hd]
    rfl
  obtain ⟨v, hv⟩ := Option.isSome_iff_exists.mp
    (isSome_jsonValues.mp hvalues _ (Dict.mem_of_get hvalue))
  have hget := get_jsonValues hd key
  rw [hvalue, Option.bind_some, hv] at hget
  obtain ⟨w, hw, hsame⟩ := get_of_line h hget
  exact ⟨v, w, hv, hw, hsame⟩

/-- A key that is read from the line is one of the entry. -/
theorem key_of_line {e : Dict String LogValue} (hnodup : e.keys.Nodup) {depth : Nat}
    {d : Dict String Json} {fields : Dict PyStr Json} {k : PyStr} {w : Json}
    (hd : jsonValues writer depth e = some d)
    (h : exactFields fields = exactFields
      ((d.map fun f => (f.1, f.2.joined)).map fun f => (PyStr.ofString f.1, f.2)))
    (hw : fields.get k = some w) : ∃ key value, k = PyStr.ofString key ∧
      e.get key = some value := by
  have hsome := congrArg (Dict.get · k) h
  simp only [get_exactFields, hw, Option.map_some] at hsome
  obtain ⟨u, hu, -⟩ := Option.map_eq_some_iff.mp hsome.symm
  obtain ⟨f, hf, heq⟩ := List.mem_map.mp (Dict.mem_of_get hu)
  obtain ⟨⟨key, v⟩, hmem, rfl⟩ := List.mem_map.mp hf
  have hget := get_jsonValues hd key
  rw [Dict.get_of_mem (keys_jsonValues hd ▸ hnodup) hmem] at hget
  obtain ⟨value, hvalue, -⟩ := Option.bind_eq_some_iff.mp hget.symm
  exact ⟨key, value, (congrArg Prod.fst heq).symm, hvalue⟩

/-- A line reads back as an object that tells of its record. -/
theorem loads_format (hline : format writer instanceId record = some line)
    (h : record.Readable writer reader) : ∃ fields,
    jsonLoads reader (.bytes (Python.asciiBytes line)) = .ok (.obj fields) ∧
      Tells writer instanceId record fields := by
  obtain ⟨e, depth, d, he, hdepth, hd, rfl⟩ := format_eq_some.mp hline
  obtain ⟨-, message, exception, hmessage, hexception, -⟩ := entry_eq_some.mp he
  obtain ⟨value, hloads, hexact⟩ := loads_dumps (h.within he hdepth hd)
  rw [joined_jsonObject (keys_jsonValues hd ▸ nodup_entry he)] at hexact
  obtain ⟨fields, rfl, hfields⟩ := exact_eq_obj hexact
  have htext : ∀ {key text}, e.get key = some (.str text) →
      Dict.get fields (PyStr.ofString key) = some (.str text.joined) := by
    intro key text hvalue
    obtain ⟨v, w, hv, hw, hsame⟩ := get_of_entry hd hfields hvalue
    rw [LogValue.json_str] at hv
    obtain rfl := Option.some.inj hv
    rw [hw, exact_eq_str hsame]
  have hplain : ∀ {key : String} {text : String},
      (standard instanceId record (isoformatUtc record.created) message).get key
        = some (.str (PyStr.ofString text)) →
      Dict.get fields (PyStr.ofString key) = some (.str (PyStr.ofString text)) := by
    intro key text hv
    rw [htext (get_entry_standard he hmessage hv), PyStr.joined_ofString]
  refine ⟨fields, hloads, hplain rfl, hplain rfl, hplain rfl, hplain rfl, ?_, ?_, ?_, ?_⟩
  · rw [hmessage]
    exact htext (get_entry_standard he hmessage rfl)
  · exact fun text hsome => htext (get_entry_exception he hsome)
  · intro key value hextra
    rw [hdepth]
    exact get_of_entry hd hfields (get_entry_extra he hextra)
  · intro k w hw
    obtain ⟨key, value, hk, hvalue⟩ := key_of_line (nodup_entry he) hd hfields hw
    refine ⟨key, hk, ?_⟩
    rcases entry_cases he hvalue with ⟨hkey, text, htext, -⟩ | ⟨hkey, -⟩ | hextra
    · exact .inr (.inr ⟨hkey, text, htext⟩)
    · exact .inl hkey
    · exact .inr (.inl (by rw [hextra]; rfl))

/-! ## The stream -/

theorem printable_format (h : format writer instanceId record = some line) : Printable line := by
  obtain ⟨e, depth, d, -, -, -, rfl⟩ := format_eq_some.mp h
  exact printable_dumps _

theorem newline_not_mem_format (h : format writer instanceId record = some line) :
    codePoint '\n' ∉ line :=
  fun hmem => absurd (printable_format h _ hmem).1 (by decide)

/-- A record after another adds its line to those before. -/
theorem splitOn_logged {report : LogRecord → PyStr} {records : List LogRecord}
    {lines : List PyStr} (h : records.map (format writer instanceId) = lines.map some) :
    (logged writer instanceId report records).splitOn (codePoint '\n') = lines ++ [[]] := by
  induction records generalizing lines with
  | nil =>
    obtain rfl : lines = [] := List.map_eq_nil_iff.mp h.symm
    rfl
  | cons record records ih =>
    cases lines with
    | nil => cases h
    | cons line lines =>
      obtain ⟨hline, hlines⟩ := List.cons.inj h
      rw [logged, List.flatMap_cons, emit, hline, List.append_assoc, List.singleton_append,
        List.splitOn_append_cons_self_of_not_mem (newline_not_mem_format hline)]
      exact congrArg (line :: ·) (ih hlines)

/-- A record gets a line if it meets `Renders`, and no other does. A line is printable ASCII,
and if its record meets `Readable` it reads back as an object that tells of it. Where all
records of a stream have lines, it splits at its newlines into these, in order. -/
theorem log_lines_read_back (writer reader : Limits) (instanceId : String)
    (report : LogRecord → PyStr) :
    (∀ record, (format writer instanceId record).isSome = true ↔ record.Renders writer) ∧
    (∀ record line, format writer instanceId record = some line → Printable line ∧
      (record.Readable writer reader → ∃ fields,
        jsonLoads reader (.bytes (Python.asciiBytes line)) = .ok (.obj fields) ∧
          Tells writer instanceId record fields)) ∧
    ∀ records : List LogRecord, (∀ record ∈ records, record.Renders writer) → ∃ lines,
      records.map (format writer instanceId) = lines.map some ∧
      (logged writer instanceId report records).splitOn (codePoint '\n') = lines ++ [[]] := by
  refine ⟨fun record => format_isSome_iff, fun record line hline => ?_, fun records hrenders => ?_⟩
  · exact ⟨printable_format hline, fun hreadable => loads_format hline hreadable⟩
  · have hlines : records.map (format writer instanceId)
        = (records.map fun record => (format writer instanceId record).getD []).map some := by
      rw [List.map_map]
      refine List.map_congr_left fun record hrecord => ?_
      obtain ⟨line, hline⟩ :=
        Option.isSome_iff_exists.mp (format_isSome_iff.mpr (hrenders record hrecord))
      rw [Function.comp_apply, hline, Option.getD_some]
    exact ⟨_, hlines, splitOn_logged hlines⟩

/-- A message and a traceback of two lines, an attribute that the entry has, one that is
reserved, a dict with a number for a key, and an object inside a list. -/
def noisyRecord : LogRecord where
  created := 0
  levelname := "ERROR"
  name := "app.main"
  message := some (PyStr.ofString "handler\nfailed")
  attributes := [("levelname", .str (PyStr.ofString "ERROR")), ("level", .int 40),
    ("counts", .obj [(.int 7, .null)]), ("tags", .arr [.other (some (PyStr.ofString "<object>"))])]
  exception := some (some (PyStr.ofString "Traceback\nValueError: boom"))

theorem log_lines_read_back_noisy : ∃ line fields,
    (logged ⟨3, some 4300⟩ "instance-1" (fun _ => []) [noisyRecord]).splitOn (codePoint '\n')
      = [line, []] ∧
    jsonLoads ⟨2, some 4300⟩ (.bytes (Python.asciiBytes line)) = .ok (.obj fields) ∧
    Tells ⟨3, some 4300⟩ "instance-1" noisyRecord fields := by
  have hextra : ∀ key value, noisyRecord.extra? key = some value → ∃ v,
      value.json ⟨3, some 4300⟩ 2 = some v ∧ v.within ⟨2, some 4300⟩ 1 = true := by
    intro key value hextra
    have hmem := mem_of_extra? hextra
    simp only [noisyRecord, List.mem_cons, Prod.mk.injEq, List.not_mem_nil, or_false] at hmem
    rcases hmem with ⟨-, rfl⟩ | ⟨-, rfl⟩ | ⟨-, rfl⟩ | ⟨-, rfl⟩ <;> exact ⟨_, rfl, by decide⟩
  have hrenders : noisyRecord.Renders ⟨3, some 4300⟩ := by
    refine ⟨by decide, rfl, rfl, by decide, fun key value hvalue => ?_⟩
    obtain ⟨v, hv, -⟩ := hextra key value hvalue
    exact Option.isSome_iff_exists.mpr ⟨v, hv⟩
  have hreadable : noisyRecord.Readable ⟨3, some 4300⟩ ⟨2, some 4300⟩ := by
    refine ⟨by decide, fun key value v hvalue hv => ?_⟩
    obtain ⟨v', hv', hwithin⟩ := hextra key value hvalue
    obtain rfl := Option.some.inj (hv.symm.trans hv')
    exact hwithin
  obtain ⟨-, hread, hstream⟩ := log_lines_read_back ⟨3, some 4300⟩ ⟨2, some 4300⟩ "instance-1"
    (fun _ => [])
  obtain ⟨lines, hlines, hsplit⟩ := hstream [noisyRecord] (by simpa using hrenders)
  cases lines with
  | nil => cases hlines
  | cons line lines =>
    obtain ⟨hline, hnil⟩ := List.cons.inj hlines
    obtain rfl : lines = [] := List.map_eq_nil_iff.mp hnil.symm
    obtain ⟨fields, hloads, htells⟩ := (hread noisyRecord line hline).2 hreadable
    exact ⟨line, fields, hsplit, hloads, htells⟩

end RealtimeNotify.App
