import Mathlib.Data.List.Basic
import Mathlib.Data.Nat.Digits.Defs

/-!
# Text

Python's `str` is a row of code points, surrogates included; `PyStr` is that.
Where a text cannot hold a surrogate (a Redis key, a parsed identifier) the
model uses Lean's `String`, which is the same row without them.
-/

namespace RealtimeNotify.Python

abbrev CodePoint := Fin 0x110000

instance neZero_codePoints : NeZero 0x110000 := ⟨by decide⟩

/-- A Python `str`. -/
abbrev PyStr := List CodePoint

theorem char_toNat_lt (c : Char) : c.toNat < 0x110000 := by
  have := c.valid
  simp only [UInt32.isValidChar, Nat.isValidChar] at this
  show c.val.toNat < _
  omega

def codePoint (c : Char) : CodePoint := ⟨c.toNat, char_toNat_lt c⟩

/-- A text without surrogates as a `str`. -/
def PyStr.ofString (s : String) : PyStr := s.toList.map codePoint

def char? (c : CodePoint) : Option Char :=
  if c.val.isValidChar then some (Char.ofNat c.val) else none

/-- A `str` as a text, if it has no surrogates. -/
def PyStr.text? (s : PyStr) : Option String := (s.mapM char?).map String.ofList

theorem char?_codePoint (c : Char) : char? (codePoint c) = some c := by
  have hvalid : (codePoint c).val.isValidChar := c.valid
  rw [char?, if_pos hvalid]
  exact congrArg some (Char.ofNat_toNat c)

@[simp] theorem PyStr.text?_ofString (s : String) : (PyStr.ofString s).text? = some s := by
  have hchars : ∀ cs : List Char, (cs.map codePoint).mapM char? = some cs := by
    intro cs
    induction cs with
    | nil => rfl
    | cons c cs ih => simp [char?_codePoint, ih]
  rw [text?, ofString, hchars, Option.map_some, String.ofList_toList]

/-- `s.replace(pat, "")`: occurrences are removed from left to right; `skip`
characters of the current occurrence are still to be dropped. -/
def removeAllFrom (pat : List Char) : Nat → List Char → List Char
  | _, [] => []
  | skip + 1, _ :: cs => removeAllFrom pat skip cs
  | 0, c :: cs =>
      if pat.isPrefixOf (c :: cs) then removeAllFrom pat (pat.length - 1) cs
      else c :: removeAllFrom pat 0 cs

def removeAll (pat cs : List Char) : List Char := removeAllFrom pat 0 cs

/-- The last `width` digits of `n` in a base of at most sixteen, zero padded,
lower case: `'%0{width}d' % n` and `'%0{width}x' % n` for an `n` that fits. -/
def digitRow (base : Nat) : Nat → Nat → List Char
  | 0, _ => []
  | width + 1, n => digitRow base width (n / base) ++ [Nat.digitChar (n % base)]

theorem digitRow_length (base w n : Nat) : (digitRow base w n).length = w := by
  induction w generalizing n with
  | zero => rfl
  | succ w ih => simp [digitRow, ih]

theorem removeAll_eq_self {p : Char} {pat cs : List Char} (h : p ∉ cs) :
    removeAll (p :: pat) cs = cs := by
  unfold removeAll
  induction cs with
  | nil => rfl
  | cons c cs ih =>
    simp only [List.mem_cons, not_or] at h
    have hne : (p == c) = false := by simpa using h.1
    simp [removeAllFrom, List.isPrefixOf, hne, ih h.2]

theorem removeAll_singleton (p : Char) (cs : List Char) :
    removeAll [p] cs = cs.filter (· ≠ p) := by
  unfold removeAll
  induction cs with
  | nil => rfl
  | cons c cs ih =>
    by_cases h : p = c
    · subst h
      simpa [removeAllFrom, List.isPrefixOf] using ih
    · have hne : (p == c) = false := by simpa using h
      simpa [removeAllFrom, List.isPrefixOf, hne, Ne.symm h] using ih

end RealtimeNotify.Python
