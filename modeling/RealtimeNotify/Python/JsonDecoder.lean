import RealtimeNotify.Python.Codecs
import RealtimeNotify.Python.Json

/-!
# `json.loads`

The decoder of the standard library with its default settings, with the class of
the exception where it raises one. Two limits belong to the interpreter: how deep
arrays and objects may nest, and how many digits an integer may have.
-/

namespace RealtimeNotify.Python

/-- The exceptions `json.loads` raises. -/
inductive LoadsError where
  | jsonDecodeError
  | typeError
  | unicodeDecodeError
  | recursionError
  | valueError
  deriving DecidableEq

/-- `maxDigits` is that of `sys.set_int_max_str_digits`, `none` for no limit. -/
structure Limits where
  depth : Nat
  maxDigits : Option Nat := some 4300

/-- Why a scan ends. The loops of the scanner are bounded by the text they have
left, and `outOfFuel` is not reached. -/
inductive Stop where
  | jsonDecodeError
  | recursionError
  | valueError
  | outOfFuel

/-- A scan reads something from the front of a text and leaves the rest. -/
abbrev Scan (α : Type) := PyStr → Except Stop (α × PyStr)

def syntaxError {α : Type} : Except Stop α := .error .jsonDecodeError

/-! ## White space and literals -/

/-- `[ \t\n\r]` -/
def isSpace (c : CodePoint) : Bool := c.val = 0x20 || c.val = 0x09 || c.val = 0x0a || c.val = 0x0d

def skipSpace (s : PyStr) : PyStr := s.dropWhile isSpace

/-- The rest of the text after a literal. -/
def literal? : PyStr → PyStr → Option PyStr
  | [], s => some s
  | _ :: _, [] => none
  | l :: ls, c :: s => if c = l then literal? ls s else none

/-! ## Strings -/

def hexDigit? (c : CodePoint) : Option Nat :=
  if 0x30 ≤ c.val ∧ c.val ≤ 0x39 then some (c.val - 0x30)
  else if 0x61 ≤ c.val ∧ c.val ≤ 0x66 then some (c.val - 0x61 + 10)
  else if 0x41 ≤ c.val ∧ c.val ≤ 0x46 then some (c.val - 0x41 + 10)
  else none

/-- The number of `\uXXXX`. -/
def hex4? (a b c d : CodePoint) : Option Nat := do
  let a ← hexDigit? a
  let b ← hexDigit? b
  let c ← hexDigit? c
  let d ← hexDigit? d
  return ((a * 16 + b) * 16 + c) * 16 + d

/-- What follows the backslash of a short escape, and what it stands for. -/
def escapes : Dict CodePoint CodePoint :=
  [('"', '"'), ('\\', '\\'), ('/', '/'), ('b', '\x08'), ('f', '\x0c'), ('n', '\n'), ('r', '\r'),
    ('t', '\t')].map fun p => (codePoint p.1, codePoint p.2)

def consChar (c : CodePoint) (r : Except Stop (PyStr × PyStr)) : Except Stop (PyStr × PyStr) :=
  r.map fun p => (c :: p.1, p.2)

/-- `scanstring`, after the opening quote. -/
def scanString : Scan PyStr
  | [] => syntaxError
  | c :: s =>
      if c = codePoint '"' then .ok ([], s)
      else if c.val ≤ 0x1f then syntaxError
      else if c = codePoint '\\' then
        match s with
        | [] => syntaxError
        | e :: s =>
            if e = codePoint 'u' then
              match s with
              | h0 :: h1 :: h2 :: h3 :: s =>
                  match hex4? h0 h1 h2 h3 with
                  | none => syntaxError
                  | some n =>
                      -- a high surrogate looks for the escape of its other half
                      match s with
                      | b :: u :: l0 :: l1 :: l2 :: l3 :: t =>
                          if isHighSurrogate n && b = codePoint '\\' && u = codePoint 'u' then
                            match hex4? l0 l1 l2 l3 with
                            | none => syntaxError
                            | some low =>
                                if isLowSurrogate low then
                                  consChar (joinSurrogates n low) (scanString t)
                                else consChar (Fin.ofNat 0x110000 n)
                                  (scanString (b :: u :: l0 :: l1 :: l2 :: l3 :: t))
                          else consChar (Fin.ofNat 0x110000 n)
                            (scanString (b :: u :: l0 :: l1 :: l2 :: l3 :: t))
                      | s => consChar (Fin.ofNat 0x110000 n) (scanString s)
              | _ => syntaxError
            else
              match escapes.get e with
              | some ch => consChar ch (scanString s)
              | none => syntaxError
      else consChar c (scanString s)

/-! ## Numbers -/

def isDigit (c : CodePoint) : Bool := 0x30 ≤ c.val ∧ c.val ≤ 0x39

def digitsValue (digits : PyStr) : Nat := digits.foldl (fun n c => n * 10 + (c.val - 0x30)) 0

/-- A point with a digit behind it, and all digits there. -/
def scanFraction : PyStr → PyStr × PyStr
  | c :: d :: s =>
      if c = codePoint '.' && isDigit d then (d :: s.takeWhile isDigit, s.dropWhile isDigit)
      else ([], c :: d :: s)
  | s => ([], s)

/-- The sign of an exponent, positive if there is none. -/
def scanSign : PyStr → Int × PyStr
  | c :: s =>
      if c = codePoint '+' then (1, s) else if c = codePoint '-' then (-1, s) else (1, c :: s)
  | [] => (1, [])

/-- An exponent counts only if it has a digit. -/
def scanExponent : PyStr → Option Int × PyStr
  | c :: s =>
      if c = codePoint 'e' || c = codePoint 'E' then
        let (sign, t) := scanSign s
        match t.takeWhile isDigit with
        | [] => (none, c :: s)
        | digits => (some (sign * digitsValue digits), t.dropWhile isDigit)
      else (none, c :: s)
  | [] => (none, [])

/-- The number that the parts of a literal make; `int` has a limit of digits. -/
def makeNumber (maxDigits : Option Nat) (negative : Bool) (whole fraction : PyStr)
    (exponent : Option Int) : Except Stop Json :=
  if fraction = [] && exponent.isNone then
    if maxDigits.any (· < whole.length) then .error .valueError
    else .ok (.int (if negative then -digitsValue whole else digitsValue whole))
  else .ok (.float (.decimal negative (digitsValue (whole ++ fraction))
    (exponent.getD 0 - fraction.length)))

/-- The digits before the point: one zero, or a row that does not start with one. -/
def scanWhole : PyStr → PyStr × PyStr
  | c :: s =>
      if c = codePoint '0' then ([c], s)
      else if isDigit c then (c :: s.takeWhile isDigit, s.dropWhile isDigit)
      else ([], c :: s)
  | [] => ([], [])

/-- `_match_number` -/
def scanNumber (maxDigits : Option Nat) : Scan Json := fun s =>
  let negative : Bool := s.head? = some (codePoint '-')
  let (whole, s) := scanWhole (if negative then s.tail else s)
  if whole = [] then syntaxError
  else
    let (fraction, s) := scanFraction s
    let (exponent, s) := scanExponent s
    (makeNumber maxDigits negative whole fraction exponent).map (·, s)

/-! ## Terms -/

def constants : List (String × Json) :=
  [("null", .null), ("true", .bool true), ("false", .bool false), ("NaN", .float .nan),
    ("Infinity", .float (.infinity false)), ("-Infinity", .float (.infinity true))]

def scanConstant (s : PyStr) : Option (Json × PyStr) :=
  constants.findSome? fun p => (literal? (PyStr.ofString p.1) s).map (p.2, ·)

/-- The loop of `_parse_array`, at the start of an item. -/
def scanItems (scan : Scan Json) : (fuel : Nat) → Scan (List Json)
  | 0, _ => .error .outOfFuel
  | fuel + 1, s =>
      match scan s with
      | .error e => .error e
      | .ok (item, s) =>
          match skipSpace s with
          | [] => syntaxError
          | c :: s =>
              if c = codePoint ']' then .ok ([item], s)
              else if c = codePoint ',' then
                (scanItems scan fuel (skipSpace s)).map fun p => (item :: p.1, p.2)
              else syntaxError

/-- A property name and the colon. -/
def scanKey : Scan PyStr
  | [] => syntaxError
  | c :: s =>
      if c = codePoint '"' then
        match scanString s with
        | .error e => .error e
        | .ok (key, s) =>
            match skipSpace s with
            | [] => syntaxError
            | c :: s => if c = codePoint ':' then .ok (key, s) else syntaxError
      else syntaxError

/-- The loop of `_parse_object`, at the start of a property name. -/
def scanMembers (scan : Scan Json) : (fuel : Nat) → Dict PyStr Json → Scan (Dict PyStr Json)
  | 0, _, _ => .error .outOfFuel
  | fuel + 1, fields, s =>
      match scanKey s with
      | .error e => .error e
      | .ok (key, s) =>
          match scan (skipSpace s) with
          | .error e => .error e
          | .ok (value, s) =>
              match skipSpace s with
              | [] => syntaxError
              | c :: s =>
                  if c = codePoint '}' then .ok (fields.set key value, s)
                  else if c = codePoint ',' then
                    scanMembers scan fuel (fields.set key value) (skipSpace s)
                  else syntaxError

def scanArray (scan : Scan Json) (s : PyStr) : Except Stop (Json × PyStr) :=
  if s.head? = some (codePoint ']') then .ok (.arr [], s.tail)
  else (scanItems scan (s.length + 1) s).map fun p => (.arr p.1, p.2)

def scanObject (scan : Scan Json) (s : PyStr) : Except Stop (Json × PyStr) :=
  if s.head? = some (codePoint '}') then .ok (.obj [], s.tail)
  else (scanMembers scan (s.length + 1) [] s).map fun p => (.obj p.1, p.2)

/-- `_scan_once`; `nested` scans the terms within, `none` at the recursion limit. -/
def scanTerm (maxDigits : Option Nat) (nested : Option (Scan Json)) : Scan Json
  | [] => syntaxError
  | c :: s =>
      if c = codePoint '"' then (scanString s).map fun p => (.str p.1, p.2)
      else if c = codePoint '{' then
        match nested with
        | none => .error .recursionError
        | some scan => scanObject scan (skipSpace s)
      else if c = codePoint '[' then
        match nested with
        | none => .error .recursionError
        | some scan => scanArray scan (skipSpace s)
      else
        match scanConstant (c :: s) with
        | some r => .ok r
        | none => scanNumber maxDigits (c :: s)

def scanOnce (maxDigits : Option Nat) : (depth : Nat) → Scan Json
  | 0 => scanTerm maxDigits none
  | depth + 1 => scanTerm maxDigits (some (scanOnce maxDigits depth))

/-! ## `json.loads` -/

/-- `JSONDecoder.decode`: one term with white space around it, nothing else. -/
def decodeText (limits : Limits) (text : PyStr) : Except LoadsError Json :=
  match scanOnce limits.maxDigits limits.depth (skipSpace text) with
  | .ok (value, s) => if skipSpace s = [] then .ok value else .error .jsonDecodeError
  | .error .recursionError => .error .recursionError
  | .error .valueError => .error .valueError
  | .error .jsonDecodeError | .error .outOfFuel => .error .jsonDecodeError

/-- What `loads` is given: a payload, or the number of a subscription message. -/
inductive LoadsInput where
  | bytes (b : Bytes)
  | int (n : Int)

def jsonLoads (limits : Limits) : LoadsInput → Except LoadsError Json
  | .int _ => .error .typeError
  | .bytes b =>
      match decodeBytes (detectEncoding b) b with
      | none => .error .unicodeDecodeError
      | some text => decodeText limits text

/-! ## The scanner does not run out of fuel -/

/-- The scan has raised, or has left less than it was given. -/
def Shrinks {α : Type} (s : PyStr) : Except Stop (α × PyStr) → Prop
  | .ok (_, rest) => rest.length < s.length
  | .error .outOfFuel => False
  | .error _ => True

section

variable {α β : Type} {s t : PyStr} {x : Except Stop (α × PyStr)}

theorem Shrinks.mono (h : Shrinks s x) (hle : s.length ≤ t.length) : Shrinks t x := by
  cases x with
  | ok p => exact Nat.lt_of_lt_of_le h hle
  | error e => cases e <;> exact h

theorem Shrinks.map (h : Shrinks s x) (f : α → β) : Shrinks s (x.map fun p => (f p.1, p.2)) := by
  cases x with
  | ok p => exact h
  | error e => cases e <;> exact h

theorem Shrinks.error {e : Stop} (h : Shrinks s (.error e : Except Stop (α × PyStr))) :
    Shrinks t (.error e : Except Stop (β × PyStr)) := by
  cases e <;> exact h

theorem shrinks_syntaxError : Shrinks s (syntaxError : Except Stop (α × PyStr)) := trivial

theorem Shrinks.not_outOfFuel (h : Shrinks s x) : x ≠ .error .outOfFuel := by
  rintro rfl
  exact h

theorem skipSpace_length : (skipSpace s).length ≤ s.length := (List.dropWhile_suffix _).length_le

theorem skipSpace_cons_length {c : CodePoint} (h : skipSpace s = c :: t) :
    t.length < s.length := by
  have hle := skipSpace_length (s := s)
  rw [h, List.length_cons] at hle
  exact hle

theorem literal_length {l : PyStr} (h : literal? l s = some t) :
    t.length + l.length = s.length := by
  induction l generalizing s with
  | nil =>
    obtain rfl := by simpa [literal?] using h
    rfl
  | cons c l ih =>
    cases s with
    | nil => cases h
    | cons d s =>
      simp only [literal?] at h
      split at h
      · rw [List.length_cons, List.length_cons, ← ih h]
        rfl
      · cases h

theorem Shrinks.consChar {c : CodePoint} {x : Except Stop (PyStr × PyStr)} (h : Shrinks s x)
    (hle : s.length ≤ t.length) : Shrinks t (consChar c x) :=
  (h.map (c :: ·)).mono hle

theorem scanString_shrinks (s : PyStr) : Shrinks s (scanString s) := by
  fun_induction scanString s with
  | case2 s => exact Nat.lt_succ_self _
  | case7 h0 h1 h2 h3 n _ b u l0 l1 l2 l3 t _ low _ _ _ _ ih =>
    exact ih.consChar (by simp only [List.length_cons]; omega)
  | case8 h0 h1 h2 h3 n _ b u l0 l1 l2 l3 t _ low _ _ _ _ ih =>
    exact ih.consChar (by simp only [List.length_cons]; omega)
  | case9 h0 h1 h2 h3 n _ b u l0 l1 l2 l3 t _ _ _ ih =>
    exact ih.consChar (by simp only [List.length_cons]; omega)
  | case10 h0 h1 h2 h3 n _ s _ _ _ ih =>
    exact ih.consChar (by simp only [List.length_cons]; omega)
  | case12 e s _ ch _ _ _ ih => exact ih.consChar (by simp only [List.length_cons]; omega)
  | case14 c s _ _ _ ih => exact ih.consChar (by simp only [List.length_cons]; omega)
  | _ => exact shrinks_syntaxError

theorem dropDigits_length : (s.dropWhile isDigit).length ≤ s.length :=
  (List.dropWhile_suffix _).length_le

theorem scanFraction_length (s : PyStr) : (scanFraction s).2.length ≤ s.length := by
  unfold scanFraction
  split
  · rename_i c d s
    have := dropDigits_length (s := s)
    split
    · simp only [List.length_cons]
      omega
    · exact Nat.le_refl _
  · exact Nat.le_refl _

theorem scanSign_length (s : PyStr) : (scanSign s).2.length ≤ s.length := by
  unfold scanSign
  split
  · split
    · simp
    · split <;> simp
  · simp

theorem scanExponent_length (s : PyStr) : (scanExponent s).2.length ≤ s.length := by
  unfold scanExponent
  split
  · rename_i c s
    have hsign := scanSign_length s
    have hdigits := dropDigits_length (s := (scanSign s).2)
    split
    · simp only
      split
      · exact Nat.le_refl _
      · simp only [List.length_cons]
        omega
    · exact Nat.le_refl _
  · exact Nat.le_refl _

theorem scanWhole_length (h : (scanWhole s).1 ≠ []) : (scanWhole s).2.length < s.length := by
  cases s with
  | nil => exact absurd rfl h
  | cons c s =>
    have := dropDigits_length (s := s)
    simp only [scanWhole] at h ⊢
    split
    · exact Nat.lt_succ_self _
    · split
      · simp only [List.length_cons]
        omega
      · simp_all

theorem scanNumber_shrinks (maxDigits : Option Nat) (s : PyStr) :
    Shrinks s (scanNumber maxDigits s) := by
  unfold scanNumber
  simp only
  generalize hneg : decide (s.head? = some (codePoint '-')) = negative
  have htail : (if negative then s.tail else s).length ≤ s.length := by
    split <;> simp
  generalize (if negative then s.tail else s) = t at htail
  split
  · exact shrinks_syntaxError
  · rename_i hwhole
    have h1 := scanWhole_length hwhole
    have h2 := scanFraction_length (scanWhole t).2
    have h3 := scanExponent_length (scanFraction (scanWhole t).2).2
    unfold makeNumber
    split
    · split
      · trivial
      · show _ < _
        omega
    · show _ < _
      omega

theorem scanConstant_length {v : Json} (h : scanConstant s = some (v, t)) :
    t.length < s.length := by
  obtain ⟨p, hp, hl⟩ := List.exists_of_findSome?_eq_some h
  obtain ⟨r, hr, heq⟩ := Option.map_eq_some_iff.mp hl
  obtain rfl : r = t := congrArg Prod.snd heq
  have hlen := literal_length hr
  have hpos : ∀ q ∈ constants, 0 < (PyStr.ofString q.1).length := by decide
  have := hpos p hp
  omega

theorem scanItems_shrinks {scan : Scan Json} (hscan : ∀ s, Shrinks s (scan s)) {fuel : Nat}
    (hfuel : s.length < fuel) : Shrinks s (scanItems scan fuel s) := by
  induction fuel generalizing s with
  | zero => omega
  | succ fuel ih =>
    have hitem := hscan s
    unfold scanItems
    split
    · rename_i e he
      rw [he] at hitem
      exact hitem.error
    · rename_i item r hr
      rw [hr] at hitem
      split
      · exact shrinks_syntaxError
      · rename_i c t ht
        have hlen := skipSpace_cons_length ht
        have hitem : r.length < s.length := hitem
        split
        · show _ < _
          omega
        · split
          · have hrest := skipSpace_length (s := t)
            exact ((ih (s := skipSpace t) (by omega)).map _).mono (by omega)
          · exact shrinks_syntaxError

theorem scanKey_shrinks (s : PyStr) : Shrinks s (scanKey s) := by
  unfold scanKey
  split
  · exact shrinks_syntaxError
  · rename_i c s
    split
    · have hkey := scanString_shrinks s
      split
      · rename_i e he
        rw [he] at hkey
        exact hkey.error
      · rename_i key r hr
        rw [hr] at hkey
        have hkey : r.length < s.length := hkey
        split
        · exact shrinks_syntaxError
        · rename_i d t ht
          have hlen := skipSpace_cons_length ht
          split
          · show _ < _
            simp only [List.length_cons]
            omega
          · exact shrinks_syntaxError
    · exact shrinks_syntaxError

theorem scanMembers_shrinks {scan : Scan Json} (hscan : ∀ s, Shrinks s (scan s)) {fuel : Nat}
    {fields : Dict PyStr Json} (hfuel : s.length < fuel) :
    Shrinks s (scanMembers scan fuel fields s) := by
  induction fuel generalizing s fields with
  | zero => omega
  | succ fuel ih =>
    have hkey := scanKey_shrinks s
    unfold scanMembers
    split
    · rename_i e he
      rw [he] at hkey
      exact hkey.error
    · rename_i key r hr
      rw [hr] at hkey
      have hkey : r.length < s.length := hkey
      have hspace := skipSpace_length (s := r)
      have hvalue := hscan (skipSpace r)
      split
      · rename_i e he
        rw [he] at hvalue
        exact hvalue.error
      · rename_i value q hq
        rw [hq] at hvalue
        have hvalue : q.length < (skipSpace r).length := hvalue
        split
        · exact shrinks_syntaxError
        · rename_i c t ht
          have hlen := skipSpace_cons_length ht
          split
          · show _ < _
            omega
          · split
            · have hrest := skipSpace_length (s := t)
              exact (ih (s := skipSpace t) (by omega)).mono (by omega)
            · exact shrinks_syntaxError

theorem tail_length {c : CodePoint} (h : s.head? = some c) : s.tail.length < s.length := by
  obtain ⟨t, rfl⟩ := List.head?_eq_some_iff.mp h
  exact Nat.lt_succ_self _

theorem scanArray_shrinks {scan : Scan Json} (hscan : ∀ s, Shrinks s (scan s)) (s : PyStr) :
    Shrinks s (scanArray scan s) := by
  unfold scanArray
  split
  · rename_i h
    exact tail_length h
  · exact (scanItems_shrinks hscan (Nat.lt_succ_self _)).map _

theorem scanObject_shrinks {scan : Scan Json} (hscan : ∀ s, Shrinks s (scan s)) (s : PyStr) :
    Shrinks s (scanObject scan s) := by
  unfold scanObject
  split
  · rename_i h
    exact tail_length h
  · exact (scanMembers_shrinks hscan (Nat.lt_succ_self _)).map _

theorem scanTerm_shrinks {maxDigits : Option Nat} {nested : Option (Scan Json)}
    (hnested : ∀ scan, nested = some scan → ∀ s, Shrinks s (scan s)) (s : PyStr) :
    Shrinks s (scanTerm maxDigits nested s) := by
  unfold scanTerm
  split
  · exact shrinks_syntaxError
  · rename_i c s
    have hspace := skipSpace_length (s := s)
    split
    · exact ((scanString_shrinks s).map _).mono (Nat.le_succ _)
    · split
      · cases nested with
        | none => trivial
        | some scan =>
          exact (scanObject_shrinks (hnested scan rfl) _).mono (hspace.trans (Nat.le_succ _))
      · split
        · cases nested with
          | none => trivial
          | some scan =>
            exact (scanArray_shrinks (hnested scan rfl) _).mono (hspace.trans (Nat.le_succ _))
        · split
          · rename_i r hr
            exact scanConstant_length hr
          · exact scanNumber_shrinks maxDigits _

/-- Induction on the depth. -/
theorem scanOnce_shrinks (maxDigits : Option Nat) (depth : Nat) (s : PyStr) :
    Shrinks s (scanOnce maxDigits depth s) := by
  induction depth generalizing s with
  | zero => exact scanTerm_shrinks (by simp) s
  | succ depth ih =>
    refine scanTerm_shrinks (fun scan hscan => ?_) s
    obtain rfl := Option.some.inj hscan
    exact ih

/-- The branch of `decodeText` for a scan without fuel is never taken. -/
theorem scanOnce_ne_outOfFuel (maxDigits : Option Nat) (depth : Nat) (s : PyStr) :
    scanOnce maxDigits depth s ≠ .error .outOfFuel :=
  (scanOnce_shrinks maxDigits depth s).not_outOfFuel

end

example : jsonLoads ⟨1, none⟩ (.bytes [0x5b, 0x31, 0x2c, 0x20, 0x74, 0x72, 0x75, 0x65, 0x5d])
    = .ok (.arr [.int 1, .bool true]) := rfl

end RealtimeNotify.Python
