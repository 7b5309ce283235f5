import RealtimeNotify.Python.Dict
import RealtimeNotify.Python.Text

/-!
# JSON values

What Python's `json` decodes to: an integer is unbounded, `NaN` and the
infinities are numbers, a string may hold unpaired surrogates and an object has
each key once. A float is kept as the decimal it was written as; its rounding to
a double is left out.
-/

namespace RealtimeNotify.Python

/-- A Python `float`: `± digits · 10 ^ exponent` or one of the three others. -/
inductive PyFloat where
  | decimal (negative : Bool) (digits : Nat) (exponent : Int)
  | nan
  | infinity (negative : Bool)
  deriving DecidableEq

inductive Json where
  | null
  | bool (b : Bool)
  | int (n : Int)
  | float (x : PyFloat)
  | str (s : PyStr)
  | arr (items : List Json)
  | obj (fields : List (PyStr × Json))

/-! ## Equality -/

mutual

def Json.beq : Json → Json → Bool
  | .null, .null => true
  | .bool a, .bool b => a = b
  | .int m, .int n => m = n
  | .float x, .float y => x = y
  | .str s, .str t => s = t
  | .arr vs, .arr ws => beqItems vs ws
  | .obj fs, .obj gs => beqFields fs gs
  | _, _ => false

def beqItems : List Json → List Json → Bool
  | [], [] => true
  | v :: vs, w :: ws => v.beq w && beqItems vs ws
  | _, _ => false

def beqFields : List (PyStr × Json) → List (PyStr × Json) → Bool
  | [], [] => true
  | (k, v) :: fs, (l, w) :: gs => k = l && v.beq w && beqFields fs gs
  | _, _ => false

end

mutual

theorem Json.beq_iff : ∀ v w : Json, v.beq w = true ↔ v = w
  | .null, w => by cases w <;> simp [Json.beq]
  | .bool b, w => by cases w <;> simp [Json.beq]
  | .int n, w => by cases w <;> simp [Json.beq]
  | .float x, w => by cases w <;> simp [Json.beq]
  | .str s, w => by cases w <;> simp [Json.beq]
  | .arr vs, w => by cases w <;> simp [Json.beq, beqItems_iff vs]
  | .obj fs, w => by cases w <;> simp [Json.beq, beqFields_iff fs]

theorem beqItems_iff : ∀ vs ws : List Json, beqItems vs ws = true ↔ vs = ws
  | [], ws => by cases ws <;> simp [beqItems]
  | v :: vs, ws => by cases ws <;> simp [beqItems, Json.beq_iff v, beqItems_iff vs]

theorem beqFields_iff : ∀ fs gs : List (PyStr × Json), beqFields fs gs = true ↔ fs = gs
  | [], gs => by cases gs <;> simp [beqFields]
  | (k, v) :: fs, gs => by
      cases gs <;> simp [beqFields, Json.beq_iff v, beqFields_iff fs, Prod.ext_iff]

end

instance : DecidableEq Json := fun v w => decidable_of_iff _ (Json.beq_iff v w)

end RealtimeNotify.Python
