import RealtimeNotify.Python.JsonDecoder

/-!
# `Subscriber._listen`

The loop over the messages of `listen()`. An exception of `json.loads` that is
not among those the `except` clause names leaves the coroutine, and the task is
over.
-/

namespace RealtimeNotify.App

open RealtimeNotify.Python

/-- A message of `listen()`, with the fields the loop reads. -/
structure ListenMessage where
  type : String
  data : LoadsInput

/-- The `except` clause of the decoding. -/
def catchesLoads : LoadsError → Bool
  | .jsonDecodeError | .typeError => true
  | .unicodeDecodeError | .recursionError | .valueError => false

/-- What a run of the loop leaves: the payloads the handler was called with, the
log, the number of messages taken, and the exception that ended the task. -/
structure Listened where
  calls : List Json
  logged : List String
  taken : Nat
  raised : Option LoadsError

namespace Listened

def done : Listened := ⟨[], [], 0, none⟩

/-- One more message at the front, with what it logged. -/
def take (logged : List String) (r : Listened) : Listened :=
  { r with logged := logged ++ r.logged, taken := r.taken + 1 }

/-- One more call at the front. -/
def call (payload : Json) (r : Listened) : Listened := { r with calls := payload :: r.calls }

end Listened

/-- `_listen` over the messages, `n` calls of the handler after its start;
`raises n` says that call `n` raises an exception. -/
def Subscriber.listen (limits : Limits) (instanceId : String) (raises : Nat → Bool) :
    (n : Nat) → List ListenMessage → Listened
  | _, [] => .done
  | n, m :: ms =>
      if m.type ≠ "message" then (listen limits instanceId raises n ms).take []
      else
        match jsonLoads limits m.data with
        | .error e =>
            if catchesLoads e then
              (listen limits instanceId raises n ms).take
                ["Discarding malformed pubsub message on instance " ++ instanceId]
            else ⟨[], [], 1, some e⟩
        | .ok payload =>
            ((listen limits instanceId raises (n + 1) ms).take
              (if raises n then ["Handler failed for pubsub message on instance " ++ instanceId]
                else [])).call payload

/-! ## What the loop survives -/

/-- The decoded payloads of the messages of type `message` that decode. -/
def payloads (limits : Limits) (messages : List ListenMessage) : List Json :=
  messages.filterMap fun m =>
    if m.type = "message" then (jsonLoads limits m.data).toOption else none

/-- The interpreter decodes the text, or finds a fault in it, within its limits. -/
def WithinLimits (limits : Limits) (text : PyStr) : Prop :=
  decodeText limits text ≠ .error .recursionError ∧ decodeText limits text ≠ .error .valueError

/-- The bytes are valid in the encoding they show, and their text is within the
limits. -/
def Loadable (limits : Limits) : LoadsInput → Prop
  | .int _ => True
  | .bytes b => ∃ text, decodeBytes (detectEncoding b) b = some text ∧ WithinLimits limits text

theorem catchesLoads_decodeText {limits : Limits} {text : PyStr} {e : LoadsError}
    (h : decodeText limits text = .error e) (hr : e ≠ .recursionError) (hv : e ≠ .valueError) :
    catchesLoads e = true := by
  unfold decodeText at h
  split at h
  · split at h
    · cases h
    · cases h
      rfl
  · cases h
    exact absurd rfl hr
  · cases h
    exact absurd rfl hv
  · cases h
    rfl
  · cases h
    rfl

/-- Such a message is decoded, or discarded. -/
theorem loadable_iff {limits : Limits} {data : LoadsInput} :
    Loadable limits data ↔ ∀ e, jsonLoads limits data = .error e → catchesLoads e = true := by
  cases data with
  | int n =>
    constructor
    · rintro - e h
      cases h
      rfl
    · intro _
      trivial
  | bytes b =>
    constructor
    · rintro ⟨text, htext, hrecursion, hvalue⟩ e h
      simp only [jsonLoads, htext] at h
      refine catchesLoads_decodeText h ?_ ?_
      · rintro rfl
        exact hrecursion h
      · rintro rfl
        exact hvalue h
    · intro h
      cases htext : decodeBytes (detectEncoding b) b with
      | none => exact absurd (h .unicodeDecodeError (by simp only [jsonLoads, htext])) (by decide)
      | some text =>
        have hload : jsonLoads limits (.bytes b) = decodeText limits text := by
          simp only [jsonLoads, htext]
        rw [hload] at h
        exact ⟨text, htext, fun he => absurd (h _ he) (by decide),
          fun he => absurd (h _ he) (by decide)⟩

section

variable {limits : Limits} {i : String} {raises : Nat → Bool} {n : Nat}

/-- Whatever calls of the handler raise, nothing but a message that cannot be
loaded ends the task. -/
theorem Subscriber.listen_raised {messages : List ListenMessage}
    (h : (listen limits i raises n messages).raised = none) :
    ∀ m ∈ messages, m.type = "message" → Loadable limits m.data := by
  induction messages generalizing n with
  | nil => simp
  | cons m ms ih =>
    rw [listen] at h
    intro m' hm' htype
    split at h
    · rename_i hother
      rcases List.mem_cons.mp hm' with rfl | hm'
      · exact absurd htype hother
      · exact ih h m' hm' htype
    · split at h
      · rename_i e he
        split at h
        · rename_i hcaught
          rcases List.mem_cons.mp hm' with rfl | hm'
          · refine loadable_iff.mpr fun e' he' => ?_
            obtain rfl := Except.error.inj (he.symm.trans he')
            exact hcaught
          · exact ih h m' hm' htype
        · cases h
      · rename_i payload hload
        rcases List.mem_cons.mp hm' with rfl | hm'
        · exact loadable_iff.mpr fun e he => by simp [hload] at he
        · exact ih h m' hm' htype

/-- With nothing of the kind among them, all messages are taken and the handler
is called once for each payload, in order. -/
theorem Subscriber.listen_loadable {messages : List ListenMessage}
    (h : ∀ m ∈ messages, m.type = "message" → Loadable limits m.data) :
    (listen limits i raises n messages).raised = none ∧
      (listen limits i raises n messages).taken = messages.length ∧
      (listen limits i raises n messages).calls = payloads limits messages := by
  induction messages generalizing n with
  | nil => exact ⟨rfl, rfl, rfl⟩
  | cons m ms ih =>
    have hrest : ∀ m ∈ ms, m.type = "message" → Loadable limits m.data := fun m hm =>
      h m (List.mem_cons_of_mem _ hm)
    rw [listen]
    split
    · rename_i hother
      obtain ⟨hraised, htaken, hcalls⟩ := ih (n := n) hrest
      refine ⟨hraised, congrArg (· + 1) htaken, hcalls.trans ?_⟩
      simp [payloads, hother]
    · rename_i htype
      have htype : m.type = "message" := not_not.mp htype
      split
      · rename_i e he
        rw [if_pos (loadable_iff.mp (h m List.mem_cons_self htype) e he)]
        obtain ⟨hraised, htaken, hcalls⟩ := ih (n := n) hrest
        refine ⟨hraised, congrArg (· + 1) htaken, hcalls.trans ?_⟩
        simp [payloads, htype, he, Except.toOption]
      · rename_i payload hload
        obtain ⟨hraised, htaken, hcalls⟩ := ih (n := n + 1) hrest
        refine ⟨hraised, congrArg (· + 1) htaken, (congrArg (payload :: ·) hcalls).trans ?_⟩
        simp [payloads, htype, hload, Except.toOption]

end

/-- The task takes every message and calls the handler once for each that
decodes, in order, iff every message of type `message` can be loaded. -/
theorem listen_survives_iff (limits : Limits) (i : String) (raises : Nat → Bool)
    (messages : List ListenMessage) :
    ((Subscriber.listen limits i raises 0 messages).raised = none ∧
      (Subscriber.listen limits i raises 0 messages).taken = messages.length ∧
      (Subscriber.listen limits i raises 0 messages).calls = payloads limits messages) ↔
    ∀ m ∈ messages, m.type = "message" → Loadable limits m.data :=
  ⟨fun h => Subscriber.listen_raised h.1, Subscriber.listen_loadable⟩

/-- A byte that starts no character, and an empty object behind it. -/
def badByteRun : List ListenMessage :=
  [⟨"message", .bytes [0xff]⟩, ⟨"message", .bytes [0x7b, 0x7d]⟩]

theorem listen_survives_iff_bad_byte :
    (Subscriber.listen ⟨1000, some 4300⟩ "a" (fun _ => false) 0 badByteRun).raised
      = some .unicodeDecodeError ∧
    (Subscriber.listen ⟨1000, some 4300⟩ "a" (fun _ => false) 0 badByteRun).calls = [] ∧
    payloads ⟨1000, some 4300⟩ badByteRun = [.obj []] :=
  ⟨rfl, rfl, rfl⟩

end RealtimeNotify.App
