import RealtimeNotify.Python.JsonDecoder
import RealtimeNotify.Python.JsonEncoder

/-!
# What a `jsonb` column accepts

The input function of the type: a text of the JSON standard, so neither `NaN` nor
`Infinity`, with strings that PostgreSQL can hold, so without U+0000 and with each
surrogate next to its other half. Of a text that `json.dumps` wrote, the value
alone decides.
-/

namespace RealtimeNotify.Postgres

open RealtimeNotify.Python

/-! ## The input function -/

/-- What is left behind a token, `none` where there is no such token. -/
abbrev Accept := PyStr → Option PyStr

/-- The characters that a backslash may stand before. -/
def escapable : List CodePoint := ['"', '\\', '/', 'b', 'f', 'n', 'r', 't'].map codePoint

/-- The rest of a string. `high` says that the escape of a high surrogate has just
been read: then nothing but that of a low one may follow. -/
def jsonbString (high : Bool) : Accept
  | [] => none
  | c :: s =>
      if c = codePoint '"' then (if high then none else some s)
      else if c.val < 0x20 then none
      else if c = codePoint '\\' then
        match s with
        | [] => none
        | e :: s =>
            if e = codePoint 'u' then
              match s with
              | h0 :: h1 :: h2 :: h3 :: s =>
                  match hex4? h0 h1 h2 h3 with
                  | none => none
                  | some n =>
                      if isHighSurrogate n then (if high then none else jsonbString true s)
                      else if isLowSurrogate n then (if high then jsonbString false s else none)
                      else if high || n = 0 then none
                      else jsonbString false s
              | _ => none
            else if high then none
            else if e ∈ escapable then jsonbString false s
            else none
      else if high || isHighSurrogate c.val || isLowSurrogate c.val then none
      else jsonbString false s

/-- An exponent, if there is one. -/
def jsonbExponent : Accept
  | [] => some []
  | c :: s =>
      if c = codePoint 'e' || c = codePoint 'E' then
        match (scanSign s).2 with
        | [] => none
        | d :: s => if isDigit d then some (s.dropWhile isDigit) else none
      else some (c :: s)

/-- A fraction, if there is one, and what may follow it. -/
def jsonbFraction : Accept
  | [] => some []
  | c :: s =>
      if c = codePoint '.' then
        match s with
        | [] => none
        | d :: s => if isDigit d then jsonbExponent (s.dropWhile isDigit) else none
      else jsonbExponent (c :: s)

def jsonbUnsigned : Accept
  | [] => none
  | c :: s =>
      if c = codePoint '0' then jsonbFraction s
      else if isDigit c then jsonbFraction (s.dropWhile isDigit)
      else none

def jsonbNumber (s : PyStr) : Option PyStr :=
  jsonbUnsigned (if s.head? = some (codePoint '-') then s.tail else s)

def jsonbLiteral (s : PyStr) : Option PyStr :=
  ["null", "true", "false"].findSome? fun l => literal? (PyStr.ofString l) s

/-- The rest of an array, from an item on. -/
def jsonbItems (value : Accept) : (fuel : Nat) → Accept
  | 0, _ => none
  | fuel + 1, s =>
      match (value s).map skipSpace with
      | some (c :: s) =>
          if c = codePoint ']' then some s
          else if c = codePoint ',' then jsonbItems value fuel (skipSpace s)
          else none
      | _ => none

/-- A key with its colon. -/
def jsonbKey : Accept
  | [] => none
  | c :: s =>
      if c = codePoint '"' then
        match (jsonbString false s).map skipSpace with
        | some (d :: s) => if d = codePoint ':' then some (skipSpace s) else none
        | _ => none
      else none

/-- The rest of an object, from a key on. -/
def jsonbMembers (value : Accept) : (fuel : Nat) → Accept
  | 0, _ => none
  | fuel + 1, s =>
      match ((jsonbKey s).bind value).map skipSpace with
      | some (c :: s) =>
          if c = codePoint '}' then some s
          else if c = codePoint ',' then jsonbMembers value fuel (skipSpace s)
          else none
      | _ => none

def jsonbArray (value : Accept) (s : PyStr) : Option PyStr :=
  if s.head? = some (codePoint ']') then some s.tail else jsonbItems value (s.length + 1) s

def jsonbObject (value : Accept) (s : PyStr) : Option PyStr :=
  if s.head? = some (codePoint '}') then some s.tail else jsonbMembers value (s.length + 1) s

def jsonbTerm (value : Accept) : Accept
  | [] => none
  | c :: s =>
      if c = codePoint '"' then jsonbString false s
      else if c = codePoint '{' then jsonbObject value (skipSpace s)
      else if c = codePoint '[' then jsonbArray value (skipSpace s)
      else (jsonbLiteral (c :: s)).or (jsonbNumber (c :: s))

/-- A value that is nested at most `depth` deep. -/
def jsonbValue : (depth : Nat) → Accept
  | 0, _ => none
  | depth + 1, s => jsonbTerm (jsonbValue depth) s

/-- One value with white space around it. No text nests deeper than it is long. -/
def jsonbAccepts (text : PyStr) : Bool :=
  (jsonbValue (text.length + 1) (skipSpace text)).map skipSpace = some []

example : jsonbAccepts (PyStr.ofString "[1.5e3, \x7b\"a\": \"\\ud83d\\ude00\"\x7d]") = true := by
  decide +kernel
example : jsonbAccepts (PyStr.ofString "[\"\\ude00\"]") = false := by decide +kernel

/-! ## What a value must be like -/

/-- No U+0000, and every surrogate next to its other half; `high` says that a high
one stands before. -/
def storableFrom (high : Bool) : PyStr → Bool
  | [] => !high
  | c :: s =>
      if isHighSurrogate c.val then !high && storableFrom true s
      else if isLowSurrogate c.val then high && storableFrom false s
      else !high && c.val ≠ 0 && storableFrom false s

def storableStr (s : PyStr) : Bool := storableFrom false s

mutual

/-- All numbers are finite, all strings and keys can be held. -/
def storable : Json → Bool
  | .null | .bool _ | .int _ => true
  | .float x => x.isFinite
  | .str s => storableStr s
  | .arr items => storableItems items
  | .obj fields => storableFields fields

def storableItems : List Json → Bool
  | [] => true
  | v :: vs => storable v && storableItems vs

def storableFields : List (PyStr × Json) → Bool
  | [] => true
  | (k, v) :: fs => storableStr k && storable v && storableFields fs

end

theorem storable_names {members : List (PyStr × Json)} (h : storable (.obj members) = true) :
    ∀ f ∈ members, storableStr f.1 = true := by
  induction members with
  | nil => exact nofun
  | cons f members ih =>
    obtain ⟨k, v⟩ := f
    rw [storable, storableFields, Bool.and_eq_true, Bool.and_eq_true] at h
    exact List.forall_mem_cons.mpr ⟨h.1.1, ih h.2⟩

/-! ## Strings that `json.dumps` wrote -/

theorem hexDigit_digitChar : ∀ d < 16, hexDigit? (codePoint (Nat.digitChar d)) = some d := by
  decide

/-- The four digits of a code unit read back. -/
theorem hex4_digitRow {n : Nat} (hn : n < 0x10000) : ∃ a b c d,
    (digitRow 16 4 n).map codePoint = [a, b, c, d] ∧ hex4? a b c d = some n := by
  refine ⟨_, _, _, _, rfl, ?_⟩
  have hdigit : ∀ m, hexDigit? (codePoint (Nat.digitChar (m % 16))) = some (m % 16) := fun m =>
    hexDigit_digitChar _ (Nat.mod_lt _ (by decide))
  rw [hex4?, hdigit, hdigit, hdigit, hdigit]
  simp only [Option.bind_eq_bind, Option.bind_some, Option.pure_def, Option.some.injEq]
  omega

/-- One escaped code unit, in any state. -/
theorem jsonbString_unit (high : Bool) {n : Nat} (hn : n < 0x10000) (t : PyStr) :
    jsonbString high (escapeUnit n ++ t)
      = if isHighSurrogate n then (if high then none else jsonbString true t)
        else if isLowSurrogate n then (if high then jsonbString false t else none)
        else if high || n = 0 then none
        else jsonbString false t := by
  obtain ⟨a, b, c, d, hrow, hhex⟩ := hex4_digitRow hn
  have hquote : codePoint '\\' ≠ codePoint '"' := by decide
  have hspace : ¬ (codePoint '\\').val < 0x20 := by decide
  rw [escapeUnit, hrow]
  simp only [List.cons_append, List.nil_append, jsonbString, hquote, hspace, if_false, if_true,
    hhex]

theorem jsonbString_escape (high : Bool) {e : CodePoint} (hu : e ≠ codePoint 'u')
    (he : e ∈ escapable) (t : PyStr) : jsonbString high (codePoint '\\' :: e :: t)
      = if high then none else jsonbString false t := by
  have hquote : codePoint '\\' ≠ codePoint '"' := by decide
  have hspace : ¬ (codePoint '\\').val < 0x20 := by decide
  rw [jsonbString.eq_def]
  simp only [hquote, hspace, hu, he, if_false, if_true]

theorem jsonbString_plain (high : Bool) {c : CodePoint} (hquote : c ≠ codePoint '"')
    (hspace : ¬ c.val < 0x20) (hback : c ≠ codePoint '\\') (t : PyStr) :
    jsonbString high (c :: t) = if high || isHighSurrogate c.val || isLowSurrogate c.val then none
      else jsonbString false t := by
  rw [jsonbString.eq_def]
  simp only [hquote, hspace, hback, if_false]

theorem shortEscapes_facts : ∀ p ∈ shortEscapes, p.2 ∈ escapable ∧ p.2 ≠ codePoint 'u' ∧
    isHighSurrogate p.1.val = false ∧ isLowSurrogate p.1.val = false ∧ p.1.val ≠ 0 := by
  -- along the list: pairs of code points are finitely many too
  have hall : shortEscapes.all (fun p => decide (p.2 ∈ escapable ∧ p.2 ≠ codePoint 'u' ∧
      isHighSurrogate p.1.val = false ∧ isLowSurrogate p.1.val = false ∧ p.1.val ≠ 0)) = true := by
    decide
  exact fun p hp => of_decide_eq_true (List.all_eq_true.mp hall p hp)

/-- The state after a character is that after its escape. -/
theorem jsonbString_escapeChar (high : Bool) (c : CodePoint) (t : PyStr) :
    jsonbString high (escapeChar c ++ t)
      = if isHighSurrogate c.val then (if high then none else jsonbString true t)
        else if isLowSurrogate c.val then (if high then jsonbString false t else none)
        else if high || c.val = 0 then none
        else jsonbString false t := by
  unfold escapeChar
  split
  · rename_i e he
    obtain ⟨hesc, hu, hhigh, hlow, hzero⟩ := shortEscapes_facts _ (Dict.mem_of_get he)
    rw [List.cons_append, List.singleton_append, jsonbString_escape high hu hesc]
    simp only [hhigh, hlow, hzero, decide_false, Bool.or_false, Bool.false_eq_true, if_false]
  · rename_i hnone
    split
    · rename_i hprint
      have hne : ∀ p ∈ shortEscapes, c ≠ p.1 := by
        rintro p hp rfl
        rw [Dict.get_of_mem (by decide) hp] at hnone
        cases hnone
      have hhigh : isHighSurrogate c.val = false := by
        simp [isHighSurrogate]
        omega
      have hlow : isLowSurrogate c.val = false := by
        simp [isLowSurrogate]
        omega
      have hzero : c.val ≠ 0 := by omega
      have hquote : c ≠ codePoint '"' := hne (codePoint '"', codePoint '"') (by decide)
      have hback : c ≠ codePoint '\\' := hne (codePoint '\\', codePoint '\\') (by decide)
      rw [List.singleton_append, jsonbString_plain high hquote (by omega) hback]
      simp only [hhigh, hlow, hzero, decide_false, Bool.or_false, Bool.false_eq_true, if_false]
    · split
      · rename_i hlt
        exact jsonbString_unit high hlt t
      · rename_i hge
        -- two units, which make a pair
        have hc := c.isLt
        generalize hn : c.val - 0x10000 = n
        have hhigh : isHighSurrogate (0xd800 + n / 0x400) = true := by
          simp [isHighSurrogate]
          omega
        have hlow : isHighSurrogate (0xdc00 + n % 0x400) = false ∧
            isLowSurrogate (0xdc00 + n % 0x400) = true := by
          simp [isHighSurrogate, isLowSurrogate]
          omega
        have hplain : isHighSurrogate c.val = false ∧ isLowSurrogate c.val = false := by
          simp [isHighSurrogate, isLowSurrogate]
          omega
        have hzero : c.val ≠ 0 := by omega
        rw [List.append_assoc, jsonbString_unit high (by omega), jsonbString_unit true (by omega)]
        simp only [hhigh, hlow.1, hlow.2, hplain.1, hplain.2, hzero, decide_false, Bool.or_false,
          Bool.false_eq_true, if_false, if_true]

/-- Along the string, the state of the one scan is that of the other. -/
theorem jsonbString_encode (high : Bool) (s rest : PyStr) :
    jsonbString high (s.flatMap escapeChar ++ codePoint '"' :: rest)
      = if storableFrom high s then some rest else none := by
  induction s generalizing high with
  | nil =>
    rw [List.flatMap_nil, List.nil_append, jsonbString.eq_def, storableFrom]
    cases high <;> rfl
  | cons c s ih =>
    rw [List.flatMap_cons, List.append_assoc, jsonbString_escapeChar, ih, ih, storableFrom]
    cases high <;> cases isHighSurrogate c.val <;> cases isLowSurrogate c.val <;>
      by_cases hzero : c.val = 0 <;> simp [hzero]

/-! ## Numbers that `json.dumps` wrote -/

/-- A character that may belong to a number. -/
def numberChar (c : CodePoint) : Bool :=
  isDigit c || c = codePoint '.' || c = codePoint 'e' || c = codePoint 'E'

/-- No number goes on here. -/
def Delimited (rest : PyStr) : Prop := ∀ c, rest.head? = some c → numberChar c = false

theorem delimited_nil : Delimited [] := nofun

theorem delimited_cons {c : CodePoint} {s : PyStr} (h : numberChar c = false) :
    Delimited (c :: s) := by
  rintro _ ⟨⟩
  exact h

theorem Delimited.exponent {rest : PyStr} (h : Delimited rest) :
    jsonbExponent rest = some rest := by
  cases rest with
  | nil => rfl
  | cons c s =>
    have hc := h c rfl
    simp only [numberChar, Bool.or_eq_false_iff, decide_eq_false_iff_not] at hc
    simp [jsonbExponent, hc]

/-- A row of decimal digits ends here. -/
def NoDigit (rest : PyStr) : Prop := ∀ c, rest.head? = some c → isDigit c = false

theorem Delimited.noDigit {rest : PyStr} (h : Delimited rest) : NoDigit rest := by
  intro c hc
  have hnumber := h c hc
  simp only [numberChar, Bool.or_eq_false_iff] at hnumber
  exact hnumber.1.1.1

theorem Delimited.noPoint {rest : PyStr} (h : Delimited rest) :
    ∀ c, rest.head? = some c → c ≠ codePoint '.' := by
  rintro c hc rfl
  exact absurd (h _ hc) (by decide)

/-- Decimal digits. -/
def Digits (ds : List Char) : Prop := ∀ c ∈ ds, c.isDigit = true

theorem codePoint_injective : Function.Injective codePoint := fun _ _ h =>
  Char.toNat_inj.mp (Fin.mk.inj h)

theorem isDigit_codePoint {c : Char} (h : c.isDigit = true) : isDigit (codePoint c) = true := by
  have hrange : 48 ≤ c.toNat ∧ c.toNat ≤ 57 := by
    simpa [Char.isDigit, UInt32.le_iff_toNat_le] using h
  exact decide_eq_true hrange

variable {ds : List Char} {rest : PyStr}

theorem dropWhile_digits (hds : Digits ds) (hrest : NoDigit rest) :
    (ds.map codePoint ++ rest).dropWhile isDigit = rest := by
  induction ds with
  | nil =>
    cases rest with
    | nil => rfl
    | cons c s => simp [hrest c rfl]
  | cons c ds ih =>
    rw [List.map_cons, List.cons_append, List.dropWhile_cons,
      if_pos (isDigit_codePoint (hds c List.mem_cons_self))]
    exact ih fun d hd => hds d (List.mem_cons_of_mem _ hd)

theorem toDigits_digits (n : Nat) : Digits (Nat.toDigits 10 n) := fun _ hc =>
  Nat.isDigit_of_mem_toDigits (by decide) (by decide) hc

/-- The exponent that Python writes. -/
theorem jsonbExponent_text (n : Int) (hrest : NoDigit rest) :
    jsonbExponent ((exponentText n).map codePoint ++ rest) = some rest := by
  obtain ⟨d, ds, hrow, hd, hds⟩ : ∃ d ds, (if (Nat.toDigits 10 n.natAbs).length < 2
      then '0' :: Nat.toDigits 10 n.natAbs else Nat.toDigits 10 n.natAbs) = d :: ds ∧
        d.isDigit = true ∧ Digits ds := by
    have hall := toDigits_digits n.natAbs
    split
    · exact ⟨_, _, rfl, rfl, hall⟩
    · cases hrow : Nat.toDigits 10 n.natAbs with
      | nil => exact absurd hrow Nat.toDigits_ne_nil
      | cons d ds =>
        rw [hrow] at hall
        exact ⟨d, ds, rfl, hall d List.mem_cons_self,
          fun c hc => hall c (List.mem_cons_of_mem _ hc)⟩
  have hsign : ∀ t : PyStr, (scanSign (codePoint (if n < 0 then '-' else '+') :: t)).2 = t := by
    intro t
    split <;> rfl
  rw [exponentText, hrow]
  simp only [List.map_cons, List.cons_append, jsonbExponent, decide_true, Bool.true_or, if_true,
    hsign, isDigit_codePoint hd, dropWhile_digits hds hrest]

/-- A fraction of one digit or more. -/
theorem jsonbFraction_digits (hne : ds ≠ []) (hds : Digits ds) (hrest : NoDigit rest) :
    jsonbFraction (('.' :: ds).map codePoint ++ rest) = jsonbExponent rest := by
  cases ds with
  | nil => exact absurd rfl hne
  | cons d ds =>
    have hd := isDigit_codePoint (hds d List.mem_cons_self)
    simp only [List.map_cons, List.cons_append, jsonbFraction, if_true, hd,
      dropWhile_digits (fun c hc => hds c (List.mem_cons_of_mem _ hc)) hrest]

theorem jsonbFraction_none (h : ∀ c, rest.head? = some c → c ≠ codePoint '.') :
    jsonbFraction rest = jsonbExponent rest := by
  cases rest with
  | nil => rfl
  | cons c s => simp only [jsonbFraction, h c rfl, if_false]

/-- What ends a number behind its last digit. -/
structure Exponent (e : List Char) : Prop where
  noDigit : ∀ {rest}, Delimited rest → NoDigit (e.map codePoint ++ rest)
  fraction : ∀ {rest}, Delimited rest → jsonbFraction (e.map codePoint ++ rest) = some rest
  exponent : ∀ {rest}, Delimited rest → jsonbExponent (e.map codePoint ++ rest) = some rest

theorem exponent_nil : Exponent [] where
  noDigit h := h.noDigit
  fraction h := (jsonbFraction_none h.noPoint).trans h.exponent
  exponent h := h.exponent

theorem exponent_text (n : Int) : Exponent (exponentText n) where
  noDigit _ := by
    rintro _ ⟨⟩
    decide
  fraction h := by
    refine (jsonbFraction_none ?_).trans (jsonbExponent_text n h.noDigit)
    rintro _ ⟨⟩
    decide
  exponent h := jsonbExponent_text n h.noDigit

/-- The digits before the point: more than one only without a leading zero. -/
theorem jsonbUnsigned_digits {d : Char} (hwhole : Digits (d :: ds)) (hzero : d = '0' → ds = [])
    (hrest : NoDigit rest) :
    jsonbUnsigned ((d :: ds).map codePoint ++ rest) = jsonbFraction rest := by
  rw [List.map_cons, List.cons_append, jsonbUnsigned]
  split
  · rename_i heq
    rw [hzero (codePoint_injective heq), List.map_nil, List.nil_append]
  · rw [if_pos (isDigit_codePoint (hwhole d List.mem_cons_self)),
      dropWhile_digits (fun c hc => hwhole c (List.mem_cons_of_mem _ hc)) hrest]

/-- A text that starts with a digit and is read whole as a number. -/
structure Unsigned (cs : List Char) : Prop where
  head : ∃ d, cs.head? = some d ∧ d.isDigit = true
  accepted : ∀ {rest}, Delimited rest → jsonbUnsigned (cs.map codePoint ++ rest) = some rest

section Parts

variable {d : Char} {e frac : List Char} (hwhole : Digits (d :: ds)) (hzero : d = '0' → ds = [])
include hwhole hzero

theorem unsigned_whole (he : Exponent e) : Unsigned (d :: ds ++ e) := by
  refine ⟨⟨d, rfl, hwhole d List.mem_cons_self⟩, fun hrest => ?_⟩
  rw [List.map_append, List.append_assoc, jsonbUnsigned_digits hwhole hzero (he.noDigit hrest),
    he.fraction hrest]

theorem unsigned_fraction (hne : frac ≠ []) (hfrac : Digits frac) (he : Exponent e) :
    Unsigned (d :: ds ++ '.' :: (frac ++ e)) := by
  refine ⟨⟨d, rfl, hwhole d List.mem_cons_self⟩, fun {rest} hrest => ?_⟩
  have hpoint : NoDigit (('.' :: frac).map codePoint ++ (e.map codePoint ++ rest)) := by
    rintro _ ⟨⟩
    decide
  rw [← List.cons_append, List.map_append, List.map_append, List.append_assoc, List.append_assoc,
    jsonbUnsigned_digits hwhole hzero hpoint, jsonbFraction_digits hne hfrac (he.noDigit hrest),
    he.exponent hrest]

end Parts

/-- The row of a number that is not zero does not start with one. -/
theorem toDigits_head {n : Nat} (hn : n ≠ 0) :
    ∃ d ds, Nat.toDigits 10 n = d :: ds ∧ d ≠ '0' := by
  induction n using Nat.strongRecOn with
  | ind n ih =>
    rw [Nat.toDigits_eq_if (by decide)]
    split
    · rename_i hlt
      have hdigit : ∀ d < 10, d ≠ 0 → Nat.digitChar d ≠ '0' := by decide
      exact ⟨_, [], rfl, hdigit n hlt hn⟩
    · obtain ⟨d, ds, hrow, hd⟩ := ih (n / 10) (by omega) (by omega)
      exact ⟨d, ds ++ [Nat.digitChar (n % 10)], by rw [hrow, List.cons_append], hd⟩

theorem unsigned_toDigits (n : Nat) : Unsigned (Nat.toDigits 10 n) := by
  have hall := toDigits_digits n
  obtain ⟨d, ds, hrow, hzero⟩ : ∃ d ds, Nat.toDigits 10 n = d :: ds ∧ (d = '0' → ds = []) := by
    by_cases hn : n = 0
    · exact ⟨'0', [], by rw [hn, Nat.toDigits_zero], fun _ => rfl⟩
    · obtain ⟨d, ds, hrow, hd⟩ := toDigits_head hn
      exact ⟨d, ds, hrow, fun h => absurd h hd⟩
  rw [hrow] at hall ⊢
  simpa using unsigned_whole hall hzero exponent_nil

theorem replicate_digits (k : Nat) : Digits (List.replicate k '0') := by
  intro c hc
  rw [List.eq_of_mem_replicate hc]
  rfl

theorem Digits.append {cs : List Char} (hcs : Digits cs) (hds : Digits ds) : Digits (cs ++ ds) :=
  fun c hc => (List.mem_append.mp hc).elim (hcs c) (hds c)

/-- One case for each of the forms of `repr`. -/
theorem unsigned_formatRepr {d : Char} (hrow : Digits (d :: ds)) (hd : d ≠ '0') (decpt : Int) :
    Unsigned (formatRepr (d :: ds) decpt) := by
  have hzero : ∀ {cs : List Char}, d = '0' → cs = [] := fun h => absurd h hd
  have htail : Digits ds := fun c hc => hrow c (List.mem_cons_of_mem _ hc)
  have hsingle : ∀ {c : Char}, c.isDigit = true → Digits [c] := by
    rintro c hc _ hmem
    rwa [List.mem_singleton.mp hmem]
  have hhead := hsingle (hrow d List.mem_cons_self)
  unfold formatRepr
  split
  · -- all digits stand behind the point
    have hfrac := (replicate_digits (-decpt).toNat).append hrow
    simpa using unsigned_fraction (hsingle rfl) (fun _ => rfl) (by simp) hfrac exponent_nil
  · split
    · split
      · -- the point stands among the digits
        rename_i hpos hlt
        obtain ⟨k, hk⟩ : ∃ k, decpt.toNat = k + 1 := ⟨decpt.toNat - 1, by omega⟩
        rw [hk, List.length_cons] at hlt
        rw [hk, List.take_succ_cons, List.drop_succ_cons]
        have htake : Digits (d :: ds.take k) :=
          hhead.append fun c hc => htail c (List.mem_of_mem_take hc)
        have hdrop : Digits (ds.drop k) := fun c hc => htail c (List.mem_of_mem_drop hc)
        have hne : ds.drop k ≠ [] := by
          rw [Ne, List.drop_eq_nil_iff]
          omega
        simpa using unsigned_fraction htake hzero hne hdrop exponent_nil
      · -- zeros stand before the point
        rename_i hpos hle
        have hwhole := hrow.append (replicate_digits (decpt.toNat - (d :: ds).length))
        simpa using unsigned_fraction hwhole hzero (by simp) (hsingle rfl) exponent_nil
    · cases ds with
      | nil => exact unsigned_whole hhead hzero (exponent_text _)
      | cons c ds =>
        exact unsigned_fraction hhead hzero (by simp) htail (exponent_text _)

/-- Without its zeros at the end, the row still starts as it did. -/
theorem unsigned_decimalRepr {digits : Nat} (hdigits : digits ≠ 0) (exponent : Int) :
    Unsigned (decimalRepr digits exponent) := by
  obtain ⟨d, ds, hrow, hd⟩ := toDigits_head hdigits
  have hall := toDigits_digits digits
  rw [hrow] at hall
  have hkept := List.rdropWhile_prefix (· = '0') (d :: ds)
  simp only [decimalRepr, hrow]
  cases hdrop : (d :: ds).rdropWhile (· = '0') with
  | nil =>
    have hzero := List.rdropWhile_eq_nil_iff.mp hdrop d List.mem_cons_self
    exact absurd (of_decide_eq_true hzero) hd
  | cons c cs =>
    rw [hdrop] at hkept
    obtain ⟨rfl, hcs⟩ := List.cons_prefix_cons.mp hkept
    exact unsigned_formatRepr (fun b hb => hall b (hkept.subset hb)) hd _

theorem unsigned_zero : Unsigned "0.0".toList :=
  have hdigit : Digits ['0'] := replicate_digits 1
  unsigned_fraction hdigit (fun _ => rfl) (by decide) hdigit exponent_nil

/-- Digits that round to a double are not zero. -/
theorem shortest_ne_zero {x : Double} {written : Nat × Int} (h : written.1 ≠ 0) :
    (x.shortest written).1 ≠ 0 := by
  simp only [Double.shortest]
  generalize hfound : List.findSome? _ (List.range' 1 17) = found
  cases found with
  | none => exact h
  | some found =>
    obtain ⟨n, -, hn⟩ := List.exists_of_findSome?_eq_some hfound
    obtain ⟨d, hd, rfl⟩ := Option.map_eq_some_iff.mp hn
    have hrounds := List.find?_some hd
    rw [decide_eq_true_eq] at hrounds
    rintro (rfl : d = 0)
    cases hrounds

/-- `repr` of a finite float, behind its sign. -/
theorem repr_finite {x : PyFloat} (h : x.isFinite = true) :
    ∃ negative cs, x.repr = signText negative ++ cs ∧ Unsigned cs := by
  cases x with
  | nan => cases h
  | infinity negative => cases h
  | decimal negative digits exponent =>
    refine ⟨negative, _, rfl, ?_⟩
    split
    · exact unsigned_zero
    · rename_i hdigits
      simp only [PyFloat.isFinite, hdigits, decide_false, Bool.false_or] at h
      obtain ⟨x, hx⟩ := Option.isSome_iff_exists.mp h
      simp only [hx]
      split
      · exact unsigned_zero
      · exact unsigned_decimalRepr (shortest_ne_zero hdigits) _

theorem repr_infinite {x : PyFloat} (h : x.isFinite = false) :
    x.repr = "NaN".toList ∨ ∃ negative, x.repr = signText negative ++ "Infinity".toList := by
  cases x with
  | nan => exact .inl rfl
  | infinity negative => exact .inr ⟨negative, rfl⟩
  | decimal negative digits exponent =>
    simp only [PyFloat.isFinite, Bool.or_eq_false_iff, decide_eq_false_iff_not,
      Option.isSome_eq_false_iff, Option.isNone_iff_eq_none] at h
    exact .inr ⟨negative, by simp only [PyFloat.repr, h.1, h.2, if_false]⟩

/-! ## Values that `json.dumps` wrote -/

section Term

variable (value : Accept)

/-- The characters that no number starts with. -/
def starters : List Char := ['"', '{', '[', 'n', 't', 'f']

theorem jsonbTerm_other {c : Char} (h : c ∉ starters) (s : PyStr) :
    jsonbTerm value (codePoint c :: s) = jsonbNumber (codePoint c :: s) := by
  simp only [starters, List.mem_cons, List.not_mem_nil, or_false, not_or] at h
  simp [jsonbTerm, jsonbLiteral, PyStr.ofString, literal?, codePoint_injective.eq_iff, h]

theorem jsonbTerm_number {cs : List Char} (negative : Bool) (hcs : Unsigned cs)
    (hrest : Delimited rest) :
    jsonbTerm value ((signText negative ++ cs).map codePoint ++ rest) = some rest := by
  cases negative with
  | true =>
    rw [signText, if_pos rfl, List.singleton_append, List.map_cons, List.cons_append,
      jsonbTerm_other value (by decide), jsonbNumber, List.head?_cons, if_pos rfl, List.tail_cons]
    exact hcs.accepted hrest
  | false =>
    have haccepted := hcs.accepted hrest
    obtain ⟨d, hd, hdigit⟩ := hcs.head
    cases cs with
    | nil => cases hd
    | cons c ds =>
      obtain rfl := Option.some.inj hd
      have hother : ('-' :: starters).all (fun p => !p.isDigit) = true := by decide
      have hc : c ∉ '-' :: starters := fun hmem => by
        have hnot := List.all_eq_true.mp hother c hmem
        rw [hdigit] at hnot
        cases hnot
      rw [List.mem_cons, not_or] at hc
      have hsign : ¬ some (codePoint c) = some (codePoint '-') := fun h =>
        hc.1 (codePoint_injective (Option.some.inj h))
      rw [signText, if_neg (by decide), List.nil_append, List.map_cons, List.cons_append,
        jsonbTerm_other value hc.2, jsonbNumber, List.head?_cons, if_neg hsign]
      exact haccepted

theorem jsonbTerm_infinite {x : PyFloat} (h : x.isFinite = false) :
    jsonbTerm value (x.repr.map codePoint ++ rest) = none := by
  obtain hx | ⟨negative, hx⟩ := repr_infinite h
  · rw [hx]
    rfl
  · rw [hx]
    cases negative <;> rfl

theorem jsonbTerm_float (x : PyFloat) (hrest : Delimited rest) :
    jsonbTerm value (x.repr.map codePoint ++ rest) = if x.isFinite then some rest else none := by
  cases hx : x.isFinite with
  | true =>
    obtain ⟨negative, cs, hrepr, hcs⟩ := repr_finite hx
    rw [hrepr, jsonbTerm_number value negative hcs hrest, if_pos rfl]
  | false => rw [jsonbTerm_infinite value hx, if_neg Bool.false_ne_true]

theorem jsonbTerm_string (s : PyStr) : jsonbTerm value (encodeString s ++ rest)
    = if storableStr s then some rest else none := by
  rw [encodeString, List.cons_append, List.append_assoc, List.singleton_append, jsonbTerm,
    if_pos rfl]
  exact jsonbString_encode false s rest

end Term

/-- A text that starts with neither white space nor a closing bracket. -/
def Starts (s : PyStr) : Prop :=
  ∃ c t, s = c :: t ∧ isSpace c = false ∧ c ≠ codePoint ']' ∧ c ≠ codePoint '}'

theorem Starts.append {s : PyStr} (h : Starts s) (t : PyStr) : Starts (s ++ t) := by
  obtain ⟨c, u, rfl, hc⟩ := h
  exact ⟨c, u ++ t, rfl, hc⟩

theorem skipSpace_cons {c : CodePoint} (h : isSpace c = false) (s : PyStr) :
    skipSpace (c :: s) = c :: s := by
  rw [skipSpace, List.dropWhile_cons_of_neg (by simp [h])]

theorem Starts.skipSpace {s : PyStr} (h : Starts s) : skipSpace s = s := by
  obtain ⟨c, t, rfl, hc, -⟩ := h
  exact skipSpace_cons hc t

/-- One space stands behind a comma and behind a colon. -/
theorem Starts.skipSpace_space {s : PyStr} (h : Starts s) :
    RealtimeNotify.Python.skipSpace (codePoint ' ' :: s) = s := by
  rw [RealtimeNotify.Python.skipSpace, List.dropWhile_cons_of_pos (by decide)]
  exact h.skipSpace

theorem starts_number {cs : List Char} (negative : Bool) (hcs : Unsigned cs) :
    Starts ((signText negative ++ cs).map codePoint) := by
  obtain ⟨d, hd, hdigit⟩ := hcs.head
  have hrange : 0x30 ≤ (codePoint d).val ∧ (codePoint d).val ≤ 0x39 :=
    of_decide_eq_true (isDigit_codePoint hdigit)
  cases negative with
  | true => exact ⟨_, _, rfl, rfl, by decide⟩
  | false =>
    cases cs with
    | nil => cases hd
    | cons c ds =>
      obtain rfl := Option.some.inj hd
      refine ⟨_, _, rfl, ?_, ?_⟩
      · simp only [isSpace, Bool.or_eq_false_iff, decide_eq_false_iff_not]
        omega
      · constructor <;> intro heq <;> rw [codePoint_injective heq] at hdigit <;> cases hdigit

theorem starts_dumps (v : Json) : Starts (jsonDumps v) := by
  cases v with
  | null => exact ⟨_, _, rfl, rfl, by decide⟩
  | bool b => cases b <;> exact ⟨_, _, rfl, rfl, by decide⟩
  | int n => exact starts_number _ (unsigned_toDigits _)
  | float x =>
    cases hx : x.isFinite with
    | true =>
      obtain ⟨negative, cs, hrepr, hcs⟩ := repr_finite hx
      rw [jsonDumps, hrepr]
      exact starts_number negative hcs
    | false =>
      rw [jsonDumps]
      obtain hrepr | ⟨negative, hrepr⟩ := repr_infinite hx <;> rw [hrepr]
      · exact ⟨_, _, rfl, rfl, by decide⟩
      · cases negative <;> exact ⟨_, _, rfl, rfl, by decide⟩
  | str s => exact ⟨_, _, rfl, rfl, by decide⟩
  | arr items => exact ⟨_, _, rfl, rfl, by decide⟩
  | obj fields => exact ⟨_, _, rfl, rfl, by decide⟩

theorem starts_dumpsItems (v : Json) (vs : List Json) : Starts (dumpsItems (v :: vs)) := by
  cases vs with
  | nil => exact starts_dumps v
  | cons w vs => exact (starts_dumps v).append _

theorem starts_dumpsFields (f : PyStr × Json) (fs : List (PyStr × Json)) :
    Starts (dumpsFields (f :: fs)) := by
  cases fs <;> exact ⟨_, _, rfl, rfl, by decide⟩

/-- `value` reads a text of `v` as the value itself decides. -/
def Reads (value : Accept) (v : Json) : Prop :=
  ∀ rest, Delimited rest →
    value (jsonDumps v ++ rest) = if storable v then some rest else none

variable {value : Accept}

/-- The items from one on. -/
theorem jsonbItems_dumps {v : Json} {vs : List Json} {fuel : Nat}
    (hreads : ∀ w ∈ v :: vs, Reads value w) (hfuel : vs.length < fuel) (rest : PyStr) :
    jsonbItems value fuel (dumpsItems (v :: vs) ++ codePoint ']' :: rest)
      = if storableItems (v :: vs) then some rest else none := by
  have hread := hreads v List.mem_cons_self
  induction vs generalizing v fuel with
  | nil =>
    obtain ⟨fuel, rfl⟩ := Nat.exists_eq_add_one_of_ne_zero (Nat.ne_zero_of_lt hfuel)
    rw [dumpsItems, jsonbItems, hread _ (delimited_cons (by decide)), storableItems, storableItems,
      Bool.and_true]
    cases storable v <;> rfl
  | cons w vs ih =>
    obtain ⟨fuel, rfl⟩ := Nat.exists_eq_add_one_of_ne_zero (Nat.ne_zero_of_lt hfuel)
    have hitems : dumpsItems (v :: w :: vs) ++ codePoint ']' :: rest
        = jsonDumps v ++ codePoint ',' :: codePoint ' ' ::
          (dumpsItems (w :: vs) ++ codePoint ']' :: rest) := by
      rw [dumpsItems, List.append_assoc, List.append_assoc]
      rfl
    rw [hitems, jsonbItems, hread _ (delimited_cons (by decide)), storableItems]
    cases storable v with
    | false => rfl
    | true =>
      have hcomma : codePoint ',' ≠ codePoint ']' := by decide
      rw [if_pos rfl, Option.map_some, skipSpace_cons (by decide), Bool.true_and]
      simp only [hcomma, if_false, if_true]
      rw [((starts_dumpsItems w vs).append _).skipSpace_space]
      exact ih (fun u hu => hreads u (List.mem_cons_of_mem _ hu)) (by simpa using hfuel)
        (hreads w (by simp))

theorem jsonbKey_encode (k : PyStr) {t : PyStr} (ht : Starts t) :
    jsonbKey (encodeString k ++ codePoint ':' :: codePoint ' ' :: t)
      = if storableStr k then some t else none := by
  rw [encodeString, List.cons_append, List.append_assoc, List.singleton_append, jsonbKey,
    if_pos rfl, jsonbString_encode, storableStr]
  cases storableFrom false k with
  | false => rfl
  | true =>
    rw [if_pos rfl, Option.map_some, skipSpace_cons (by decide)]
    simp only [if_true]
    rw [ht.skipSpace_space]

/-- One member, up to where it ends. -/
theorem jsonbMember_dumps {k : PyStr} {v : Json} (hread : Reads value v) {t : PyStr}
    (ht : Delimited t) :
    (jsonbKey (encodeString k ++ codePoint ':' :: codePoint ' ' :: (jsonDumps v ++ t))).bind value
      = if storableStr k && storable v then some t else none := by
  rw [jsonbKey_encode k ((starts_dumps v).append t)]
  cases storableStr k with
  | false => rfl
  | true => rw [if_pos rfl, Option.bind_some, hread t ht, Bool.true_and]

/-- The members from one on. -/
theorem jsonbMembers_dumps {f : PyStr × Json} {fs : List (PyStr × Json)} {fuel : Nat}
    (hreads : ∀ g ∈ f :: fs, Reads value g.2) (hfuel : fs.length < fuel) (rest : PyStr) :
    jsonbMembers value fuel (dumpsFields (f :: fs) ++ codePoint '}' :: rest)
      = if storableFields (f :: fs) then some rest else none := by
  have hread := hreads f List.mem_cons_self
  induction fs generalizing f fuel with
  | nil =>
    obtain ⟨fuel, rfl⟩ := Nat.exists_eq_add_one_of_ne_zero (Nat.ne_zero_of_lt hfuel)
    obtain ⟨k, v⟩ := f
    have hfields : dumpsFields [(k, v)] ++ codePoint '}' :: rest
        = encodeString k ++ codePoint ':' :: codePoint ' ' ::
          (jsonDumps v ++ codePoint '}' :: rest) := by
      rw [dumpsFields, List.append_assoc, List.append_assoc]
      rfl
    rw [hfields, jsonbMembers, jsonbMember_dumps hread (delimited_cons (by decide)),
      storableFields, storableFields, Bool.and_true]
    cases storableStr k && storable v <;> rfl
  | cons g fs ih =>
    obtain ⟨fuel, rfl⟩ := Nat.exists_eq_add_one_of_ne_zero (Nat.ne_zero_of_lt hfuel)
    obtain ⟨k, v⟩ := f
    have hfields : dumpsFields ((k, v) :: g :: fs) ++ codePoint '}' :: rest
        = encodeString k ++ codePoint ':' :: codePoint ' ' :: (jsonDumps v ++ codePoint ',' ::
          codePoint ' ' :: (dumpsFields (g :: fs) ++ codePoint '}' :: rest)) := by
      rw [dumpsFields]
      simp only [List.append_assoc]
      rfl
    rw [hfields, jsonbMembers, jsonbMember_dumps hread (delimited_cons (by decide)),
      storableFields]
    cases storableStr k && storable v with
    | false => rfl
    | true =>
      have hcomma : codePoint ',' ≠ codePoint '}' := by decide
      rw [if_pos rfl, Option.map_some, skipSpace_cons (by decide), Bool.true_and]
      simp only [hcomma, if_false, if_true]
      rw [((starts_dumpsFields g fs).append _).skipSpace_space]
      exact ih (fun u hu => hreads u (List.mem_cons_of_mem _ hu)) (by simpa using hfuel)
        (hreads g (by simp))

/-! ## Every value -/

theorem length_dumpsItems {items : List Json} : ∀ v ∈ items,
    (jsonDumps v).length ≤ (dumpsItems items).length := by
  induction items with
  | nil => nofun
  | cons w ws ih =>
    intro v hv
    cases ws with
    | nil => rw [List.mem_singleton.mp hv, dumpsItems]
    | cons u us =>
      rw [dumpsItems, List.length_append, List.length_append]
      obtain rfl | hv := List.mem_cons.mp hv
      · omega
      · have := ih v hv
        omega

theorem length_dumpsFields {fields : List (PyStr × Json)} : ∀ f ∈ fields,
    (jsonDumps f.2).length ≤ (dumpsFields fields).length := by
  induction fields with
  | nil => nofun
  | cons g gs ih =>
    intro f hf
    obtain ⟨k, w⟩ := g
    cases gs with
    | nil =>
      rw [List.mem_singleton.mp hf, dumpsFields]
      simp only [List.length_append]
      omega
    | cons u us =>
      simp only [dumpsFields, List.length_append]
      obtain rfl | hf := List.mem_cons.mp hf
      · dsimp only
        omega
      · have := ih f hf
        omega

/-- The loops have fuel for all the items that the text can have. -/
theorem items_le_length (v : Json) (vs : List Json) :
    vs.length < (dumpsItems (v :: vs)).length := by
  induction vs generalizing v with
  | nil =>
    obtain ⟨c, t, hv, -⟩ := starts_dumps v
    rw [dumpsItems, hv]
    exact Nat.succ_pos _
  | cons w vs ih =>
    have hvs := ih w
    have hcomma : (PyStr.ofString ", ").length = 2 := rfl
    simp only [dumpsItems, List.length_append, List.length_cons, hcomma]
    omega

theorem fields_le_length (f : PyStr × Json) (fs : List (PyStr × Json)) :
    fs.length < (dumpsFields (f :: fs)).length := by
  have hcolon : (PyStr.ofString ": ").length = 2 := rfl
  induction fs generalizing f with
  | nil =>
    simp only [dumpsFields, List.length_append, List.length_nil, hcolon]
    omega
  | cons g fs ih =>
    have hfs := ih g
    have hcomma : (PyStr.ofString ", ").length = 2 := rfl
    simp only [dumpsFields, List.length_append, List.length_cons, hcolon, hcomma]
    omega

theorem jsonbArray_starts (value : Accept) {s : PyStr} (h : Starts s) :
    jsonbArray value s = jsonbItems value (s.length + 1) s := by
  obtain ⟨c, t, rfl, -, hc, -⟩ := h
  rw [jsonbArray, List.head?_cons, if_neg fun heq => hc (Option.some.inj heq)]

theorem jsonbObject_starts (value : Accept) {s : PyStr} (h : Starts s) :
    jsonbObject value s = jsonbMembers value (s.length + 1) s := by
  obtain ⟨c, t, rfl, -, -, hc⟩ := h
  rw [jsonbObject, List.head?_cons, if_neg fun heq => hc (Option.some.inj heq)]

/-- One case for each kind of value. The items of one have a text that is shorter than
its own, so one level less is enough for them. -/
theorem jsonbValue_dumps {depth : Nat} {v : Json} (h : (jsonDumps v).length ≤ depth) :
    Reads (jsonbValue depth) v := by
  induction depth generalizing v with
  | zero =>
    obtain ⟨c, t, hv, -⟩ := starts_dumps v
    rw [hv] at h
    cases h
  | succ depth ih =>
    intro rest hrest
    rw [jsonbValue]
    cases v with
    | null => rfl
    | bool b => cases b <;> rfl
    | int n =>
      rw [jsonDumps, intRepr, storable, if_pos rfl]
      exact jsonbTerm_number _ _ (unsigned_toDigits _) hrest
    | float x =>
      rw [jsonDumps, storable]
      exact jsonbTerm_float _ x hrest
    | str s =>
      rw [jsonDumps, storable]
      exact jsonbTerm_string _ s
    | arr items =>
      rw [jsonDumps, List.cons_append, List.append_assoc, List.singleton_append, storable]
      cases items with
      | nil => rfl
      | cons w ws =>
        have hle : (dumpsItems (w :: ws)).length < depth := by
          simp only [jsonDumps, List.length_cons, List.length_append] at h
          omega
        have hfuel := items_le_length w ws
        have hstarts := (starts_dumpsItems w ws).append (codePoint ']' :: rest)
        have hterm : ∀ s, jsonbTerm (jsonbValue depth) (codePoint '[' :: s)
            = jsonbArray (jsonbValue depth) (skipSpace s) := fun _ => rfl
        rw [hterm, hstarts.skipSpace, jsonbArray_starts _ hstarts]
        refine jsonbItems_dumps (fun u hu => ih ((length_dumpsItems u hu).trans hle.le)) ?_ rest
        rw [List.length_append]
        omega
    | obj fields =>
      rw [jsonDumps, List.cons_append, List.append_assoc, List.singleton_append, storable]
      cases fields with
      | nil => rfl
      | cons g gs =>
        have hle : (dumpsFields (g :: gs)).length < depth := by
          simp only [jsonDumps, List.length_cons, List.length_append] at h
          omega
        have hfuel := fields_le_length g gs
        have hstarts := (starts_dumpsFields g gs).append (codePoint '}' :: rest)
        have hterm : ∀ s, jsonbTerm (jsonbValue depth) (codePoint '{' :: s)
            = jsonbObject (jsonbValue depth) (skipSpace s) := fun _ => rfl
        rw [hterm, hstarts.skipSpace, jsonbObject_starts _ hstarts]
        refine jsonbMembers_dumps (fun u hu => ih ((length_dumpsFields u hu).trans hle.le)) ?_ rest
        rw [List.length_append]
        omega

/-- The text of a value is accepted when the value can be stored. -/
theorem jsonbAccepts_dumps (v : Json) : jsonbAccepts (jsonDumps v) = storable v := by
  have hread := jsonbValue_dumps (Nat.le_succ (jsonDumps v).length) [] delimited_nil
  rw [List.append_nil] at hread
  rw [jsonbAccepts, (starts_dumps v).skipSpace, hread]
  cases storable v <;> rfl

end RealtimeNotify.Postgres
