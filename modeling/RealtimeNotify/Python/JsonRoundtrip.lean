import RealtimeNotify.Python.NumberText

/-!
# `json.loads` after `json.dumps`

What one end of a channel writes, the other end reads: the same value, but that the
halves of a split surrogate pair come back as one character and a float comes back
as the shortest decimal of its double. How deep a value nests and how long its
integers are is up to the limits of the reader.
-/

namespace RealtimeNotify.Python

open RealtimeNotify.Postgres

/-! ## What comes back -/

/-- A text as it is read from its escapes. -/
def PyStr.joined (s : PyStr) : PyStr := joinPairs (s.map Fin.val)

/-- The members of an object as they are read one after the other. -/
def collect (d : Dict PyStr Json) (fields : List (PyStr × Json)) : Dict PyStr Json :=
  fields.foldl (fun d f => Dict.set d f.1 f.2) d

mutual

/-- The value with each float as the double it is. -/
def Json.exact : Json → Json
  | .float x => .float x.exact
  | .arr items => .arr (exactItems items)
  | .obj fields => .obj (exactFields fields)
  | v => v

def exactItems : List Json → List Json
  | [] => []
  | v :: vs => v.exact :: exactItems vs

def exactFields : List (PyStr × Json) → List (PyStr × Json)
  | [] => []
  | (k, v) :: fs => (k, v.exact) :: exactFields fs

end

mutual

/-- The value with all texts as they are read. -/
def Json.joined : Json → Json
  | .str s => .str s.joined
  | .arr items => .arr (joinedItems items)
  | .obj fields => .obj (collect [] (joinedFields fields))
  | v => v

def joinedItems : List Json → List Json
  | [] => []
  | v :: vs => v.joined :: joinedItems vs

def joinedFields : List (PyStr × Json) → List (PyStr × Json)
  | [] => []
  | (k, v) :: fs => (k.joined, v.joined) :: joinedFields fs

end

mutual

/-- The value nests at most `depth` deep and its integers can be read. -/
def Json.within (limits : Limits) : (depth : Nat) → Json → Bool
  | _, .int n => limits.reads n
  | 0, .arr _ | 0, .obj _ => false
  | depth + 1, .arr items => withinItems limits depth items
  | depth + 1, .obj fields => withinFields limits depth fields
  | _, _ => true

def withinItems (limits : Limits) (depth : Nat) : List Json → Bool
  | [] => true
  | v :: vs => v.within limits depth && withinItems limits depth vs

def withinFields (limits : Limits) (depth : Nat) : List (PyStr × Json) → Bool
  | [] => true
  | (_, v) :: fs => v.within limits depth && withinFields limits depth fs

end

section

variable {limits : Limits} {depth : Nat}

@[simp] theorem Json.within_str (s : PyStr) : (Json.str s).within limits depth = true := by
  cases depth <;> rfl

@[simp] theorem Json.within_float (x : PyFloat) : (Json.float x).within limits depth = true := by
  cases depth <;> rfl

@[simp] theorem Json.within_int (n : Int) :
    (Json.int n).within limits depth = limits.reads n := by
  cases depth <;> rfl

end

/-! ## Strings -/

theorem joined_cons {c : CodePoint} (h : isHighSurrogate c.val = false) (s : PyStr) :
    PyStr.joined (c :: s) = c :: s.joined := by
  have hc : Fin.ofNat 0x110000 c.val = c := Fin.ofNat_val_eq_self c
  cases s with
  | nil => rw [PyStr.joined, PyStr.joined, List.map_cons, List.map_nil, joinPairs, joinPairs, hc]
  | cons d s =>
    simp only [PyStr.joined, List.map_cons, joinPairs, h, Bool.false_and, Bool.false_eq_true,
      if_false, hc]

/-- What follows an escaped unit `n` does not make a pair with it. -/
def Alone (n : Nat) (t : PyStr) : Prop :=
  isHighSurrogate n = false ∨ (∀ a, t ≠ codePoint '\\' :: codePoint 'u' :: a) ∨
    ∃ m u, m < 0x10000 ∧ isLowSurrogate m = false ∧ t = escapeUnit m ++ u

theorem scanString_alone {n : Nat} (hn : n < 0x10000) {t : PyStr} (ht : Alone n t) :
    scanString (escapeUnit n ++ t) = consChar (Fin.ofNat 0x110000 n) (scanString t) := by
  obtain ⟨a, b, c, d, hrow, hhex⟩ := hex4_digitRow hn
  have hquote : codePoint '\\' ≠ codePoint '"' := by decide
  have hspace : ¬ (codePoint '\\').val ≤ 0x1f := by decide
  rw [escapeUnit, hrow, scanString.eq_def]
  simp only [List.cons_append, List.nil_append, hquote, hspace, if_false, if_true, hhex]
  split
  · rename_i b' u l0 l1 l2 l3 t'
    split
    · rename_i hpair
      obtain ⟨⟨hhigh, rfl⟩, rfl⟩ : (isHighSurrogate n = true ∧ b' = codePoint '\\') ∧
          u = codePoint 'u' := by simpa using hpair
      obtain hn | hnot | ⟨m, v, hm, hlow, heq⟩ := ht
      · rw [hn] at hhigh
        cases hhigh
      · exact absurd rfl (hnot _)
      · obtain ⟨a', b', c', d', hrow', hhex'⟩ := hex4_digitRow hm
        rw [escapeUnit, hrow'] at heq
        simp only [List.cons_append, List.nil_append, List.cons.injEq, true_and] at heq
        obtain ⟨rfl, rfl, rfl, rfl, -⟩ := heq
        simp only [hhex', hlow, Bool.false_eq_true, if_false]
    · rfl
  · rfl

/-- Two escaped halves are one character. -/
theorem scanString_pair {high low : Nat} (hhigh : isHighSurrogate high = true)
    (hlow : isLowSurrogate low = true) (t : PyStr) :
    scanString (escapeUnit high ++ (escapeUnit low ++ t))
      = consChar (joinSurrogates high low) (scanString t) := by
  have hbound : high < 0x10000 ∧ low < 0x10000 := by
    simp only [isHighSurrogate, isLowSurrogate, decide_eq_true_eq] at hhigh hlow
    omega
  obtain ⟨a, b, c, d, hrow, hhex⟩ := hex4_digitRow hbound.1
  obtain ⟨a', b', c', d', hrow', hhex'⟩ := hex4_digitRow hbound.2
  have hquote : codePoint '\\' ≠ codePoint '"' := by decide
  have hspace : ¬ (codePoint '\\').val ≤ 0x1f := by decide
  rw [escapeUnit, hrow, escapeUnit, hrow', scanString.eq_def]
  simp only [List.cons_append, List.nil_append, hquote, hspace, if_false, if_true, hhex, hhigh,
    decide_true, Bool.and_self, hhex', hlow]

theorem escapes_shortEscapes : ∀ p ∈ shortEscapes,
    escapes.get p.2 = some p.1 ∧ p.2 ≠ codePoint 'u' ∧ isHighSurrogate p.1.val = false := by
  have hall : shortEscapes.all (fun p => decide (escapes.get p.2 = some p.1 ∧
      p.2 ≠ codePoint 'u' ∧ isHighSurrogate p.1.val = false)) = true := by decide
  exact fun p hp => of_decide_eq_true (List.all_eq_true.mp hall p hp)

/-- A character that is no high surrogate is read back, whatever follows. -/
theorem scanString_escapeChar {c : CodePoint} (hc : isHighSurrogate c.val = false) (t : PyStr) :
    scanString (escapeChar c ++ t) = consChar c (scanString t) := by
  have hquote : codePoint '\\' ≠ codePoint '"' := by decide
  have hspace : ¬ (codePoint '\\').val ≤ 0x1f := by decide
  unfold escapeChar
  split
  · rename_i e he
    obtain ⟨hesc, hu, -⟩ := escapes_shortEscapes _ (Dict.mem_of_get he)
    rw [List.cons_append, List.singleton_append, scanString.eq_def]
    simp only [hquote, hspace, hu, hesc, if_false, if_true]
  · rename_i hnone
    have hne : ∀ p ∈ shortEscapes, c ≠ p.1 := by
      rintro p hp rfl
      rw [Dict.get_of_mem (by decide) hp] at hnone
      cases hnone
    have hc' : Fin.ofNat 0x110000 c.val = c := Fin.ofNat_val_eq_self c
    split
    · rename_i hprint
      have hq : c ≠ codePoint '"' := hne (codePoint '"', codePoint '"') (by decide)
      have hback : c ≠ codePoint '\\' := hne (codePoint '\\', codePoint '\\') (by decide)
      have hlow : ¬ c.val ≤ 0x1f := by omega
      rw [List.singleton_append, scanString.eq_def]
      simp only [hq, hback, hlow, if_false]
    · split
      · rename_i hlt
        rw [scanString_alone hlt (.inl hc), hc']
      · -- above 0xffff it is printed as a pair, and read as one character
        rename_i hge
        have hlt := c.isLt
        generalize hn : c.val - 0x10000 = n
        have hhigh : isHighSurrogate (0xd800 + n / 0x400) = true := by
          simp only [isHighSurrogate, decide_eq_true_eq]
          omega
        have hlow : isLowSurrogate (0xdc00 + n % 0x400) = true := by
          simp only [isLowSurrogate, decide_eq_true_eq]
          omega
        have hjoin : joinSurrogates (0xd800 + n / 0x400) (0xdc00 + n % 0x400) = c := by
          apply Fin.ext
          rw [joinSurrogates, Fin.val_ofNat]
          omega
        rw [List.append_assoc, scanString_pair hhigh hlow, hjoin]

/-- A surrogate is escaped as the unit it is. -/
theorem escapeChar_surrogate {c : CodePoint} (h : 0xd800 ≤ c.val ∧ c.val < 0xe000) :
    escapeChar c = escapeUnit c.val := by
  have hnone : shortEscapes.get c = none := by
    cases hget : shortEscapes.get c with
    | none => rfl
    | some e =>
      have hsmall : shortEscapes.all (fun p => decide (p.1.val < 0xd800)) = true := by decide
      have := of_decide_eq_true (List.all_eq_true.mp hsmall _ (Dict.mem_of_get hget))
      simp only at this
      omega
  rw [escapeChar, hnone]
  simp only
  rw [if_neg (by omega), if_pos (by omega)]

/-- A high surrogate stays alone before anything but a low one. -/
theorem alone_escapeChar {d : CodePoint} (hd : isLowSurrogate d.val = false) (n : Nat) (t : PyStr) :
    Alone n (escapeChar d ++ t) := by
  refine .inr ?_
  unfold escapeChar
  split
  · rename_i e he
    obtain ⟨-, hu, -⟩ := escapes_shortEscapes _ (Dict.mem_of_get he)
    exact .inl fun a h => hu (by simpa using (List.cons.inj (List.cons.inj h).2).1)
  · rename_i hnone
    split
    · have hback : d ≠ codePoint '\\' := by
        rintro rfl
        rw [Dict.get_of_mem (by decide) (v := codePoint '\\') (by decide)] at hnone
        cases hnone
      exact .inl fun a h => hback (List.cons.inj h).1
    · split
      · rename_i hlt
        exact .inr ⟨d.val, t, hlt, hd, rfl⟩
      · have hlt := d.isLt
        refine .inr ⟨0xd800 + (d.val - 0x10000) / 0x400, _, by omega, ?_, List.append_assoc ..⟩
        simp only [isLowSurrogate, decide_eq_false_iff_not]
        omega

theorem scanString_encode : ∀ s rest : PyStr,
    scanString (s.flatMap escapeChar ++ codePoint '"' :: rest) = .ok (s.joined, rest)
  | [], rest => by
      rw [List.flatMap_nil, List.nil_append, scanString.eq_def]
      rfl
  | c :: s, rest => by
      rw [List.flatMap_cons, List.append_assoc]
      cases hc : isHighSurrogate c.val with
      | false =>
        rw [scanString_escapeChar hc, scanString_encode s rest, joined_cons hc]
        rfl
      | true =>
        -- a high surrogate: what matters is whether the next one is a low one
        have hrange : 0xd800 ≤ c.val ∧ c.val < 0xdc00 := of_decide_eq_true hc
        have hc' : Fin.ofNat 0x110000 c.val = c := Fin.ofNat_val_eq_self c
        rw [escapeChar_surrogate ⟨hrange.1, by omega⟩]
        cases s with
        | nil =>
          have hend : Alone c.val (([] : PyStr).flatMap escapeChar ++ codePoint '"' :: rest) :=
            .inr (.inl fun a h => absurd (List.cons.inj h).1 (by decide))
          rw [scanString_alone (by omega) hend, scanString_encode [] rest, hc']
          simp only [consChar, Except.map, PyStr.joined, List.map_cons, List.map_nil, joinPairs,
            hc']
        | cons d s =>
          cases hd : isLowSurrogate d.val with
          | true =>
            have hrange' : 0xdc00 ≤ d.val ∧ d.val < 0xe000 := of_decide_eq_true hd
            rw [List.flatMap_cons, List.append_assoc, escapeChar_surrogate ⟨by omega, hrange'.2⟩,
              scanString_pair hc hd, scanString_encode s rest]
            simp only [consChar, Except.map, PyStr.joined, List.map_cons, joinPairs, hc, hd,
              Bool.and_self, if_true]
          | false =>
            have halone := alone_escapeChar hd c.val (s.flatMap escapeChar ++ codePoint '"' :: rest)
            rw [← List.append_assoc, ← List.flatMap_cons] at halone
            rw [scanString_alone (by omega) halone, scanString_encode (d :: s) rest]
            simp only [consChar, Except.map, PyStr.joined, List.map_cons, joinPairs, hd,
              Bool.and_false, Bool.false_eq_true, if_false]

/-! ## Terms -/

variable {rest : PyStr}

section Term

variable {m : Option Nat} {nested : Option (Scan Json)}

/-- What starts like a number, behind a sign or not, is none of the other terms. -/
theorem scanTerm_number {cs : List Char} (negative : Bool)
    (hhead : ∃ d, cs.head? = some d ∧ d.isDigit = true) :
    scanTerm m nested ((signText negative ++ cs).map codePoint ++ rest)
      = scanNumber m ((signText negative ++ cs).map codePoint ++ rest) := by
  obtain ⟨d, hd, hdigit⟩ := hhead
  cases cs with
  | nil => cases hd
  | cons c cs =>
    obtain rfl := Option.some.inj hd
    have hother : ('-' :: 'N' :: 'I' :: starters).all (fun p => !p.isDigit) = true := by decide
    have hc : c ∉ '-' :: 'N' :: 'I' :: starters := fun hmem => by
      have hnot := List.all_eq_true.mp hother c hmem
      rw [hdigit] at hnot
      cases hnot
    simp only [starters, List.mem_cons, List.not_mem_nil, or_false, not_or] at hc
    cases negative with
    | true =>
      simp [signText, scanTerm, scanConstant, constants, PyStr.ofString, literal?,
        codePoint_injective.eq_iff, hc]
    | false =>
      simp [signText, scanTerm, scanConstant, constants, PyStr.ofString, literal?,
        codePoint_injective.eq_iff, hc]

theorem scanTerm_float (x : PyFloat) (hrest : Delimited rest) :
    ∃ y : PyFloat, scanTerm m nested (x.repr.map codePoint ++ rest) = .ok (.float y, rest) ∧
      y.exact = x.exact := by
  obtain ⟨negative, cs, digits, exponent, hrepr, hreads, hexact⟩ | ⟨rfl, hrepr⟩ |
    ⟨negative, hrepr, hexact⟩ := repr_reads x
  · refine ⟨_, ?_, hexact⟩
    rw [hrepr, scanTerm_number negative hreads.head, hreads.scan hrest]
  · exact ⟨.nan, by rw [hrepr]; rfl, rfl⟩
  · refine ⟨.infinity negative, ?_, hexact.symm⟩
    rw [hrepr]
    cases negative <;> rfl

theorem scanTerm_string (s : PyStr) :
    scanTerm m nested (encodeString s ++ rest) = .ok (.str s.joined, rest) := by
  have hterm : ∀ t, scanTerm m nested (codePoint '"' :: t)
      = (scanString t).map fun p => (.str p.1, p.2) := fun _ => rfl
  rw [encodeString, List.cons_append, List.append_assoc, List.singleton_append, hterm,
    scanString_encode]
  rfl

end Term

/-- `scan` reads a text of `v` as the value it is. -/
def ReadsBack (scan : Scan Json) (v : Json) : Prop :=
  ∀ rest, Delimited rest →
    ∃ w, scan (jsonDumps v ++ rest) = .ok (w, rest) ∧ w.exact = v.joined.exact

variable {scan : Scan Json}

/-- The items from one on. -/
theorem scanItems_dumps {v : Json} {vs : List Json} {fuel : Nat}
    (hreads : ∀ w ∈ v :: vs, ReadsBack scan w) (hfuel : vs.length < fuel) (rest : PyStr) :
    ∃ ws, scanItems scan fuel (dumpsItems (v :: vs) ++ codePoint ']' :: rest) = .ok (ws, rest) ∧
      exactItems ws = exactItems (joinedItems (v :: vs)) := by
  have hread := hreads v List.mem_cons_self
  induction vs generalizing v fuel with
  | nil =>
    obtain ⟨fuel, rfl⟩ := Nat.exists_eq_add_one_of_ne_zero (Nat.ne_zero_of_lt hfuel)
    obtain ⟨w, hw, hexact⟩ := hread _ (delimited_cons (c := codePoint ']') (s := rest) (by decide))
    refine ⟨[w], ?_, ?_⟩
    · rw [dumpsItems, scanItems, hw]
      simp only [skipSpace_cons (c := codePoint ']') (by decide), if_true]
    · rw [exactItems, hexact]
      rfl
  | cons w vs ih =>
    obtain ⟨fuel, rfl⟩ := Nat.exists_eq_add_one_of_ne_zero (Nat.ne_zero_of_lt hfuel)
    have hitems : dumpsItems (v :: w :: vs) ++ codePoint ']' :: rest
        = jsonDumps v ++ codePoint ',' :: codePoint ' ' ::
          (dumpsItems (w :: vs) ++ codePoint ']' :: rest) := by
      rw [dumpsItems, List.append_assoc, List.append_assoc]
      rfl
    obtain ⟨u, hu, hexact⟩ := hread _ (delimited_cons (c := codePoint ',') (by decide))
    have hlt : vs.length < fuel := by simpa using hfuel
    obtain ⟨us, hus, hexacts⟩ := ih (fun u hu => hreads u (List.mem_cons_of_mem _ hu)) hlt
      (hreads w (by simp))
    have hcomma : codePoint ',' ≠ codePoint ']' := by decide
    refine ⟨u :: us, ?_, ?_⟩
    · rw [hitems, scanItems, hu]
      simp only [skipSpace_cons (c := codePoint ',') (by decide), hcomma, if_false, if_true]
      rw [((starts_dumpsItems w vs).append _).skipSpace_space, hus]
      rfl
    · rw [exactItems, hexact, hexacts]
      rfl

theorem scanKey_encode (k : PyStr) (t : PyStr) :
    scanKey (encodeString k ++ codePoint ':' :: t) = .ok (k.joined, t) := by
  rw [encodeString, List.cons_append, List.append_assoc, List.singleton_append, scanKey]
  simp only [if_true, scanString_encode, skipSpace_cons (c := codePoint ':') (by decide)]

theorem exactFields_set (d : Dict PyStr Json) (k : PyStr) (v : Json) :
    exactFields (Dict.set d k v) = Dict.set (exactFields d) k v.exact := by
  induction d with
  | nil => rfl
  | cons f d ih =>
    obtain ⟨l, w⟩ := f
    by_cases h : l = k
    · simp only [Dict.set, exactFields, h, if_true]
    · simp only [Dict.set, exactFields, h, if_false, ih]

/-- The members from one on. -/
theorem scanMembers_dumps {f : PyStr × Json} {fs : List (PyStr × Json)} {fuel : Nat}
    {d d' : Dict PyStr Json} (hd : exactFields d = exactFields d')
    (hreads : ∀ g ∈ f :: fs, ReadsBack scan g.2) (hfuel : fs.length < fuel) (rest : PyStr) :
    ∃ gs, scanMembers scan fuel d (dumpsFields (f :: fs) ++ codePoint '}' :: rest)
        = .ok (gs, rest) ∧
      exactFields gs = exactFields (collect d' (joinedFields (f :: fs))) := by
  have hread := hreads f List.mem_cons_self
  induction fs generalizing f fuel d d' with
  | nil =>
    obtain ⟨fuel, rfl⟩ := Nat.exists_eq_add_one_of_ne_zero (Nat.ne_zero_of_lt hfuel)
    obtain ⟨k, v⟩ := f
    have hfields : dumpsFields [(k, v)] ++ codePoint '}' :: rest
        = encodeString k ++ codePoint ':' :: codePoint ' ' ::
          (jsonDumps v ++ codePoint '}' :: rest) := by
      rw [dumpsFields, List.append_assoc, List.append_assoc]
      rfl
    obtain ⟨w, hw, hexact⟩ := hread _ (delimited_cons (c := codePoint '}') (s := rest) (by decide))
    refine ⟨d.set k.joined w, ?_, ?_⟩
    · rw [hfields, scanMembers, scanKey_encode]
      simp only [((starts_dumps v).append _).skipSpace_space, hw,
        skipSpace_cons (c := codePoint '}') (by decide), if_true]
    · rw [exactFields_set, hexact, hd, ← exactFields_set]
      rfl
  | cons g fs ih =>
    obtain ⟨fuel, rfl⟩ := Nat.exists_eq_add_one_of_ne_zero (Nat.ne_zero_of_lt hfuel)
    obtain ⟨k, v⟩ := f
    have hfields : dumpsFields ((k, v) :: g :: fs) ++ codePoint '}' :: rest
        = encodeString k ++ codePoint ':' :: codePoint ' ' :: (jsonDumps v ++ codePoint ',' ::
          codePoint ' ' :: (dumpsFields (g :: fs) ++ codePoint '}' :: rest)) := by
      rw [dumpsFields]
      simp only [List.append_assoc]
      rfl
    obtain ⟨w, hw, hexact⟩ := (show ReadsBack scan v from hread) (codePoint ',' :: codePoint ' ' ::
      (dumpsFields (g :: fs) ++ codePoint '}' :: rest)) (delimited_cons (by decide))
    -- a key that comes again replaces its value on both sides
    have hset : exactFields (d.set k.joined w) = exactFields (d'.set k.joined v.joined) := by
      rw [exactFields_set, exactFields_set, hexact, hd]
    have hlt : fs.length < fuel := by simpa using hfuel
    obtain ⟨gs, hgs, hexacts⟩ := ih hset (fun u hu => hreads u (List.mem_cons_of_mem _ hu)) hlt
      (hreads g (by simp))
    have hcomma : codePoint ',' ≠ codePoint '}' := by decide
    refine ⟨gs, ?_, hexacts⟩
    rw [hfields, scanMembers, scanKey_encode]
    simp only [((starts_dumps v).append _).skipSpace_space, hw,
      skipSpace_cons (c := codePoint ',') (by decide), hcomma, if_false, if_true]
    rw [((starts_dumpsFields g fs).append _).skipSpace_space, hgs]

theorem scanArray_starts (scan : Scan Json) {s : PyStr} (h : Starts s) :
    scanArray scan s = (scanItems scan (s.length + 1) s).map fun p => (.arr p.1, p.2) := by
  obtain ⟨c, t, rfl, -, hc, -⟩ := h
  rw [scanArray, List.head?_cons, if_neg fun heq => hc (Option.some.inj heq)]

theorem scanObject_starts (scan : Scan Json) {s : PyStr} (h : Starts s) :
    scanObject scan s = (scanMembers scan (s.length + 1) [] s).map fun p => (.obj p.1, p.2) := by
  obtain ⟨c, t, rfl, -, -, hc⟩ := h
  rw [scanObject, List.head?_cons, if_neg fun heq => hc (Option.some.inj heq)]

/-- A value that holds no others. -/
theorem scanTerm_leaf {limits : Limits} {nested : Option (Scan Json)} {depth : Nat} {v : Json}
    (harr : ∀ items, v ≠ .arr items) (hobj : ∀ fields, v ≠ .obj fields)
    (h : v.within limits depth = true) : ReadsBack (scanTerm limits.maxDigits nested) v := by
  intro rest hrest
  cases v with
  | null => exact ⟨.null, rfl, rfl⟩
  | bool b => cases b <;> exact ⟨_, rfl, rfl⟩
  | int n =>
    have hn : limits.reads n = true := by rwa [Json.within_int] at h
    refine ⟨.int n, ?_, rfl⟩
    obtain ⟨d, hd, hdigit⟩ := (unsigned_toDigits n.natAbs).head
    rw [jsonDumps, intRepr, scanTerm_number _ ⟨d, hd, hdigit⟩]
    exact scanNumber_int hn hrest
  | float x =>
    obtain ⟨y, hy, hexact⟩ := scanTerm_float x hrest
    exact ⟨.float y, hy, congrArg Json.float hexact⟩
  | str s => exact ⟨.str s.joined, scanTerm_string s, rfl⟩
  | arr items => exact absurd rfl (harr items)
  | obj fields => exact absurd rfl (hobj fields)

theorem withinItems_iff {limits : Limits} {depth : Nat} {items : List Json} :
    withinItems limits depth items = true ↔ ∀ v ∈ items, v.within limits depth = true := by
  induction items with
  | nil => simp [withinItems]
  | cons v vs ih => simp [withinItems, ih]

theorem withinFields_iff {limits : Limits} {depth : Nat} {fields : List (PyStr × Json)} :
    withinFields limits depth fields = true ↔ ∀ f ∈ fields, f.2.within limits depth = true := by
  induction fields with
  | nil => simp [withinFields]
  | cons f fs ih => simp [withinFields, ih]

/-- One case for each kind of value, one level of the scanner for each of nesting. -/
theorem scanOnce_dumps {limits : Limits} {depth : Nat} {v : Json}
    (h : v.within limits depth = true) : ReadsBack (scanOnce limits.maxDigits depth) v := by
  induction depth generalizing v with
  -- at depth zero no array and no object is within the limits
  | zero => exact scanTerm_leaf (by rintro _ rfl; cases h) (by rintro _ rfl; cases h) h
  | succ depth ih =>
    cases v with
    | arr items =>
      intro rest hrest
      have hterm : ∀ s, scanOnce limits.maxDigits (depth + 1) (codePoint '[' :: s)
          = scanArray (scanOnce limits.maxDigits depth) (skipSpace s) := fun _ => rfl
      rw [jsonDumps, List.cons_append, List.append_assoc, List.singleton_append, hterm]
      cases items with
      | nil => exact ⟨.arr [], rfl, rfl⟩
      | cons w ws =>
        have hwithin := withinItems_iff.mp h
        have hfuel := items_le_length w ws
        have hstarts := (starts_dumpsItems w ws).append (codePoint ']' :: rest)
        have hlt : ws.length < (dumpsItems (w :: ws) ++ codePoint ']' :: rest).length + 1 := by
          rw [List.length_append]
          omega
        obtain ⟨us, hus, hexact⟩ := scanItems_dumps (fun u hu => ih (hwithin u hu)) hlt rest
        refine ⟨.arr us, ?_, congrArg Json.arr hexact⟩
        rw [hstarts.skipSpace, scanArray_starts _ hstarts, hus]
        rfl
    | obj fields =>
      intro rest hrest
      have hterm : ∀ s, scanOnce limits.maxDigits (depth + 1) (codePoint '{' :: s)
          = scanObject (scanOnce limits.maxDigits depth) (skipSpace s) := fun _ => rfl
      rw [jsonDumps, List.cons_append, List.append_assoc, List.singleton_append, hterm]
      cases fields with
      | nil => exact ⟨.obj [], rfl, rfl⟩
      | cons g gs =>
        have hwithin := withinFields_iff.mp h
        have hfuel := fields_le_length g gs
        have hstarts := (starts_dumpsFields g gs).append (codePoint '}' :: rest)
        have hlt : gs.length < (dumpsFields (g :: gs) ++ codePoint '}' :: rest).length + 1 := by
          rw [List.length_append]
          omega
        obtain ⟨us, hus, hexact⟩ := scanMembers_dumps (d := []) rfl
          (fun u hu => ih (hwithin u hu)) hlt rest
        refine ⟨.obj us, ?_, congrArg Json.obj hexact⟩
        rw [hstarts.skipSpace, scanObject_starts _ hstarts, hus]
        rfl
    | _ => exact scanTerm_leaf (by simp) (by simp) h

/-! ## The whole text -/

/-- A text of characters that can be printed, which are ASCII and end no line. -/
def Printable (s : PyStr) : Prop := ∀ c ∈ s, 0x20 ≤ c.val ∧ c.val ≤ 0x7e

theorem Printable.append {s t : PyStr} (hs : Printable s) (ht : Printable t) :
    Printable (s ++ t) := fun c hc => (List.mem_append.mp hc).elim (hs c) (ht c)

theorem Printable.cons {c : CodePoint} {s : PyStr} (hc : 0x20 ≤ c.val ∧ c.val ≤ 0x7e)
    (hs : Printable s) : Printable (c :: s) := by
  intro d hd
  obtain rfl | hd := List.mem_cons.mp hd
  · exact hc
  · exact hs d hd

theorem printable_nil : Printable [] := nofun

theorem printable_digits (hds : Digits ds) : Printable (ds.map codePoint) := by
  intro c hc
  obtain ⟨d, hd, rfl⟩ := List.mem_map.mp hc
  have hrange : 0x30 ≤ (codePoint d).val ∧ (codePoint d).val ≤ 0x39 :=
    of_decide_eq_true (isDigit_codePoint (hds d hd))
  omega

theorem printable_unit (n : Nat) : Printable (escapeUnit n) := by
  have hdigit : ∀ d < 16, 0x20 ≤ (codePoint (Nat.digitChar d)).val ∧
      (codePoint (Nat.digitChar d)).val ≤ 0x7e := by decide
  have hmod : ∀ m, 0x20 ≤ (codePoint (Nat.digitChar (m % 16))).val ∧
      (codePoint (Nat.digitChar (m % 16))).val ≤ 0x7e :=
    fun m => hdigit _ (Nat.mod_lt _ (by decide))
  refine .cons (by decide) (.cons (by decide) ?_)
  exact .cons (hmod _) (.cons (hmod _) (.cons (hmod _) (.cons (hmod _) printable_nil)))

theorem printable_escapeChar (c : CodePoint) : Printable (escapeChar c) := by
  unfold escapeChar
  split
  · rename_i e he
    have hall : shortEscapes.all (fun p => decide (0x20 ≤ p.2.val ∧ p.2.val ≤ 0x7e)) = true := by
      decide
    have := of_decide_eq_true (List.all_eq_true.mp hall _ (Dict.mem_of_get he))
    exact .cons (by decide) (.cons this printable_nil)
  · split
    · rename_i hprint
      exact .cons hprint printable_nil
    · split
      · exact printable_unit _
      · exact (printable_unit _).append (printable_unit _)

theorem printable_string (s : PyStr) : Printable (encodeString s) := by
  refine .cons (by decide) (.append ?_ (.cons (by decide) printable_nil))
  intro c hc
  obtain ⟨d, -, hd⟩ := List.mem_flatMap.mp hc
  exact printable_escapeChar d c hd

/-- A literal, character by character. -/
theorem printable_of_all {s : PyStr}
    (h : s.all (fun c => decide (0x20 ≤ c.val ∧ c.val ≤ 0x7e)) = true) : Printable s :=
  fun c hc => of_decide_eq_true (List.all_eq_true.mp h c hc)

theorem printable_sign (negative : Bool) : Printable ((signText negative).map codePoint) := by
  cases negative <;> exact printable_of_all (by decide)

theorem printable_exponent (n : Int) : Printable ((exponentText n).map codePoint) := by
  have hdigits : Digits (if (Nat.toDigits 10 n.natAbs).length < 2
      then '0' :: Nat.toDigits 10 n.natAbs else Nat.toDigits 10 n.natAbs) := by
    split
    · exact (replicate_digits 1).append (toDigits_digits _)
    · exact toDigits_digits _
  refine .cons (by decide) (.cons ?_ (printable_digits hdigits))
  split <;> decide

theorem printable_formatRepr (hds : Digits ds) (decpt : Int) :
    Printable ((formatRepr ds decpt).map codePoint) := by
  have hzeros : ∀ n, Printable ((List.replicate n '0').map codePoint) := fun n =>
    printable_digits (replicate_digits n)
  have htake : ∀ n, Printable ((ds.take n).map codePoint) := fun n =>
    printable_digits fun c hc => hds c (List.mem_of_mem_take hc)
  have hdrop : ∀ n, Printable ((ds.drop n).map codePoint) := fun n =>
    printable_digits fun c hc => hds c (List.mem_of_mem_drop hc)
  unfold formatRepr
  split
  · rw [List.map_cons, List.map_cons, List.map_append]
    exact .cons (by decide) (.cons (by decide) ((hzeros _).append (printable_digits hds)))
  · split
    · split
      · rw [List.map_append, List.map_cons]
        exact (htake _).append (.cons (by decide) (hdrop _))
      · rw [List.map_append, List.map_append]
        exact (printable_digits hds).append ((hzeros _).append (printable_of_all (by decide)))
    · rw [List.map_append, List.map_append]
      refine (htake _).append (.append ?_ (printable_exponent _))
      split
      · exact printable_nil
      · rw [List.map_cons]
        exact .cons (by decide) (hdrop _)

theorem printable_repr (x : PyFloat) : Printable (x.repr.map codePoint) := by
  cases x with
  | nan => exact printable_of_all (by decide)
  | infinity negative => cases negative <;> exact printable_of_all (by decide)
  | decimal negative digits exponent =>
    rw [PyFloat.repr, List.map_append]
    refine (printable_sign negative).append ?_
    split
    · exact printable_of_all (by decide)
    · split
      · exact printable_of_all (by decide)
      · split
        · exact printable_of_all (by decide)
        · exact printable_formatRepr (fun c hc => toDigits_digits _ c
            ((List.rdropWhile_prefix _ _).subset hc)) _

mutual

/-- All that `json.dumps` writes can be printed. -/
theorem printable_dumps : ∀ v : Json, Printable (jsonDumps v)
  | .null => printable_of_all (by decide)
  | .bool b => by cases b <;> exact printable_of_all (by decide)
  | .int n => by
      rw [jsonDumps, intRepr, List.map_append]
      exact (printable_sign _).append (printable_digits (toDigits_digits _))
  | .float x => printable_repr x
  | .str s => printable_string s
  | .arr items => by
      rw [jsonDumps]
      exact .cons (by decide) ((printable_items items).append (.cons (by decide) printable_nil))
  | .obj fields => by
      rw [jsonDumps]
      exact .cons (by decide) ((printable_fields fields).append (.cons (by decide) printable_nil))

theorem printable_items : ∀ items : List Json, Printable (dumpsItems items)
  | [] => printable_nil
  | [v] => printable_dumps v
  | v :: w :: vs => by
      rw [dumpsItems]
      exact (printable_dumps v).append ((printable_of_all (by decide)).append
        (printable_items (w :: vs)))

theorem printable_fields : ∀ fields : List (PyStr × Json), Printable (dumpsFields fields)
  | [] => printable_nil
  | [(k, v)] => by
      rw [dumpsFields]
      exact (printable_string k).append ((printable_of_all (by decide)).append
        (printable_dumps v))
  | (k, v) :: f :: fs => by
      rw [dumpsFields]
      exact (printable_string k).append ((printable_of_all (by decide)).append
        ((printable_dumps v).append ((printable_of_all (by decide)).append
          (printable_fields (f :: fs)))))

end

/-- A text as the bytes it is sent as, where it is ASCII. -/
def asciiBytes (s : PyStr) : Bytes := s.map fun c => UInt8.ofNat c.val

section

variable {s : PyStr}

theorem asciiByte_toNat {c : CodePoint} (h : c.val ≤ 0x7e) : (UInt8.ofNat c.val).toNat = c.val := by
  rw [UInt8.toNat_ofNat']
  omega

theorem Printable.byte_ne (h : Printable s) {c : CodePoint} (hc : c ∈ s) {b : UInt8}
    (hb : b.toNat < 0x20 ∨ 0x7e < b.toNat) : UInt8.ofNat c.val ≠ b := by
  rintro rfl
  have := h c hc
  rw [asciiByte_toNat this.2] at hb
  omega

/-- No byte order mark and no zero bytes. -/
theorem detectEncoding_printable (h : Printable s) : detectEncoding (asciiBytes s) = .utf8 := by
  cases s with
  | nil => rfl
  | cons c s =>
    have hzero := h.byte_ne List.mem_cons_self (b := 0x00) (by decide)
    have hfe := h.byte_ne List.mem_cons_self (b := 0xfe) (by decide)
    have hff := h.byte_ne List.mem_cons_self (b := 0xff) (by decide)
    have hef := h.byte_ne List.mem_cons_self (b := 0xef) (by decide)
    cases s with
    | nil => simp [asciiBytes, detectEncoding, List.isPrefixOf]
    | cons d s =>
      have hzero' := h.byte_ne (List.mem_cons_of_mem _ List.mem_cons_self) (b := 0x00) (by decide)
      simp only [asciiBytes, List.map_cons, detectEncoding, List.isPrefixOf, hzero.symm,
        hfe.symm, hff.symm, hef.symm, beq_eq_false_iff_ne.mpr, ne_eq, not_false_eq_true,
        Bool.false_and, Bool.or_self, Bool.false_eq_true, if_false]
      split <;> simp_all

theorem decodeUtf8_printable (h : Printable s) : decodeUtf8 (asciiBytes s) = some s := by
  induction s with
  | nil => rfl
  | cons c s ih =>
    have hc := h c List.mem_cons_self
    have hs := ih fun d hd => h d (List.mem_cons_of_mem _ hd)
    have hpoint : codePoint? c.val = some c := dif_pos c.isLt
    rw [asciiBytes] at hs
    have hsmall : c.val < 0x80 := by omega
    rw [asciiBytes, List.map_cons, decodeUtf8.eq_def]
    simp only [asciiByte_toNat hc.2, hsmall, if_true, hpoint, hs]
    rfl

end

/-- `json.loads(json.dumps(v))`: within the limits of the reader it is `v`, with split
pairs joined and floats as doubles. -/
theorem loads_dumps {limits : Limits} {v : Json} (h : v.within limits limits.depth = true) :
    ∃ w, jsonLoads limits (.bytes (asciiBytes (jsonDumps v))) = .ok w ∧
      w.exact = v.joined.exact := by
  obtain ⟨w, hw, hexact⟩ := scanOnce_dumps h [] delimited_nil
  refine ⟨w, ?_, hexact⟩
  rw [List.append_nil] at hw
  simp only [jsonLoads, detectEncoding_printable (printable_dumps v), decodeBytes,
    decodeUtf8_printable (printable_dumps v), decodeText, (starts_dumps v).skipSpace, hw]
  rfl

/-! ## Values that come back as they were -/

/-- No high surrogate stands right before a low one. -/
def PyStr.unsplit : PyStr → Bool
  | c :: d :: s => !(isHighSurrogate c.val && isLowSurrogate d.val) && unsplit (d :: s)
  | _ => true

mutual

/-- No text is split, and an object has each key once. -/
def Json.unsplit : Json → Bool
  | .str s => s.unsplit
  | .arr items => unsplitItems items
  | .obj fields => unsplitFields fields && decide (Dict.keys fields).Nodup
  | _ => true

def unsplitItems : List Json → Bool
  | [] => true
  | v :: vs => v.unsplit && unsplitItems vs

def unsplitFields : List (PyStr × Json) → Bool
  | [] => true
  | (k, v) :: fs => k.unsplit && v.unsplit && unsplitFields fs

end

theorem PyStr.joined_of_unsplit : ∀ {s : PyStr}, s.unsplit = true → s.joined = s
  | [], _ => rfl
  | [c], _ => congrArg (· :: []) (Fin.ofNat_val_eq_self c)
  | c :: d :: s, h => by
      simp only [unsplit, Bool.and_eq_true, Bool.not_eq_true'] at h
      have hs : joinPairs ((d :: s).map Fin.val) = d :: s := joined_of_unsplit h.2
      have hc : Fin.ofNat 0x110000 c.val = c := Fin.ofNat_val_eq_self c
      rw [List.map_cons] at hs
      simp only [joined, List.map_cons, joinPairs, h.1, Bool.false_eq_true, if_false, hs, hc]

/-- A Lean text has no surrogates. -/
theorem PyStr.unsplit_ofString (s : String) : (PyStr.ofString s).unsplit = true := by
  have hchar : ∀ c : Char, isHighSurrogate (codePoint c).val = false := by
    intro c
    have hvalid := c.valid
    simp only [UInt32.isValidChar, Nat.isValidChar] at hvalid
    refine decide_eq_false fun hrange => ?_
    simp only [codePoint, Char.toNat] at hrange
    omega
  have hrow : ∀ cs : List Char, PyStr.unsplit (cs.map codePoint) = true := by
    intro cs
    induction cs with
    | nil => rfl
    | cons c cs ih =>
      cases cs with
      | nil => rfl
      | cons d cs =>
        simp only [List.map_cons] at ih ⊢
        simp only [unsplit, hchar c, Bool.false_and, Bool.not_false, Bool.true_and, ih]
  exact hrow s.toList

@[simp] theorem PyStr.joined_ofString (s : String) : (PyStr.ofString s).joined = PyStr.ofString s :=
  joined_of_unsplit (unsplit_ofString s)

theorem PyStr.ofString_injective : Function.Injective PyStr.ofString := by
  intro s t h
  exact String.toList_injective (List.map_injective_iff.mpr codePoint_injective h)

/-- Members of distinct keys stay as they are. -/
theorem collect_of_nodup {d : Dict PyStr Json} {fields : List (PyStr × Json)}
    (h : (Dict.keys (d ++ fields)).Nodup) : collect d fields = d ++ fields := by
  induction fields generalizing d with
  | nil => simp [collect]
  | cons f fs ih =>
    have hnew : f.1 ∉ d.keys := by
      rw [Dict.keys, List.map_append, List.map_cons, List.nodup_append] at h
      exact fun hmem => h.2.2 _ hmem _ List.mem_cons_self rfl
    have hassoc : d ++ f :: fs = d ++ [f] ++ fs := by simp
    rw [hassoc] at h ⊢
    rw [← ih h, collect, List.foldl_cons, Dict.set_new hnew]
    rfl

mutual

theorem Json.joined_of_unsplit : ∀ {v : Json}, v.unsplit = true → v.joined = v
  | .null, _ | .bool _, _ | .int _, _ | .float _, _ => rfl
  | .str _, h => congrArg Json.str (PyStr.joined_of_unsplit h)
  | .arr _, h => congrArg Json.arr (joinedItems_of_unsplit h)
  | .obj fields, h => by
      rw [Json.unsplit, Bool.and_eq_true, decide_eq_true_eq] at h
      rw [Json.joined, joinedFields_of_unsplit h.1, collect_of_nodup (d := []) h.2, List.nil_append]

theorem joinedItems_of_unsplit : ∀ {items : List Json}, unsplitItems items = true →
    joinedItems items = items
  | [], _ => rfl
  | v :: vs, h => by
      rw [unsplitItems, Bool.and_eq_true] at h
      rw [joinedItems, Json.joined_of_unsplit h.1, joinedItems_of_unsplit h.2]

theorem joinedFields_of_unsplit : ∀ {fields : List (PyStr × Json)},
    unsplitFields fields = true → joinedFields fields = fields
  | [], _ => rfl
  | (k, v) :: fs, h => by
      rw [unsplitFields, Bool.and_eq_true, Bool.and_eq_true] at h
      rw [joinedFields, PyStr.joined_of_unsplit h.1.1, Json.joined_of_unsplit h.1.2,
        joinedFields_of_unsplit h.2]

end

/-! ## Reading what came back -/

theorem exact_eq_str {v : Json} {s : PyStr} (h : v.exact = .str s) : v = .str s := by
  cases v <;> simp_all [Json.exact]

theorem exact_eq_int {v : Json} {n : Int} (h : v.exact = .int n) : v = .int n := by
  cases v <;> simp_all [Json.exact]

theorem exact_eq_float {v : Json} {x : PyFloat} (h : v.exact = .float x) : ∃ y, v = .float y := by
  cases v <;> simp_all [Json.exact]

theorem exact_eq_obj {v : Json} {fields : List (PyStr × Json)} (h : v.exact = .obj fields) :
    ∃ fs, v = .obj fs ∧ exactFields fs = fields := by
  cases v with
  | obj fs => exact ⟨fs, rfl, Json.obj.inj h⟩
  | _ => simp [Json.exact] at h

theorem get_exactFields (d : Dict PyStr Json) (k : PyStr) :
    Dict.get (exactFields d) k = (d.get k).map Json.exact := by
  induction d with
  | nil => rfl
  | cons f d ih =>
    obtain ⟨l, v⟩ := f
    by_cases h : l = k
    · simp only [exactFields, Dict.get, h, if_true, Option.map_some]
    · simp only [exactFields, Dict.get, h, if_false, ih]

/-- A member of what came back is what came back of a member. -/
theorem get_of_exactFields {d d' : Dict PyStr Json} {k : PyStr} {v : Json}
    (h : exactFields d = exactFields d') (hv : d'.get k = some v) :
    ∃ w, d.get k = some w ∧ w.exact = v.exact := by
  have hget := get_exactFields d k
  rw [h, get_exactFields, hv, Option.map_some] at hget
  exact Option.map_eq_some_iff.mp hget.symm

/-! ## Names that a column can hold -/

/-- Two halves make a character of the upper planes. -/
theorem joinSurrogates_val {high low : Nat} (hhigh : isHighSurrogate high = true)
    (hlow : isLowSurrogate low = true) : (joinSurrogates high low).val
      = 0x10000 + (high - 0xd800) * 0x400 + (low - 0xdc00) := by
  have hhigh' : 0xd800 ≤ high ∧ high < 0xdc00 := of_decide_eq_true hhigh
  have hlow' : 0xdc00 ≤ low ∧ low < 0xe000 := of_decide_eq_true hlow
  rw [joinSurrogates, Fin.val_ofNat]
  omega

theorem joinSurrogates_plain {high low : Nat} (hhigh : isHighSurrogate high = true)
    (hlow : isLowSurrogate low = true) : isHighSurrogate (joinSurrogates high low).val = false ∧
      isLowSurrogate (joinSurrogates high low).val = false ∧ (joinSurrogates high low).val ≠ 0 := by
  rw [isHighSurrogate, isLowSurrogate, decide_eq_false_iff_not, decide_eq_false_iff_not,
    joinSurrogates_val hhigh hlow]
  omega

theorem isHighSurrogate_of_low {n : Nat} (h : isLowSurrogate n = true) :
    isHighSurrogate n = false := by
  have hrange : 0xdc00 ≤ n ∧ n < 0xe000 := of_decide_eq_true h
  rw [isHighSurrogate, decide_eq_false_iff_not]
  omega

theorem joined_pair {c d : CodePoint} (hc : isHighSurrogate c.val = true)
    (hd : isLowSurrogate d.val = true) (s : PyStr) :
    PyStr.joined (c :: d :: s) = joinSurrogates c.val d.val :: s.joined := by
  simp only [PyStr.joined, List.map_cons, joinPairs, hc, hd, Bool.and_self, if_true]

/-- Halves that stand next to each other are joined, and there are no others. -/
theorem storableStr_joined : ∀ {s : PyStr}, storableStr s = true → storableStr s.joined = true
  | [], h => h
  | c :: s, h => by
      rw [storableStr, storableFrom] at h
      by_cases hc : isHighSurrogate c.val = true
      · rw [if_pos hc, Bool.not_false, Bool.true_and] at h
        cases s with
        | nil => cases h
        | cons d s =>
          rw [storableFrom] at h
          have hd : isLowSurrogate d.val = true := by
            by_contra hd
            simp [hd] at h
          rw [isHighSurrogate_of_low hd, if_neg Bool.false_ne_true, if_pos hd,
            Bool.true_and] at h
          have hplain := joinSurrogates_plain hc hd
          have hrest : storableFrom false (PyStr.joined s) = true := storableStr_joined h
          rw [joined_pair hc hd, storableStr, storableFrom, hplain.1, hplain.2.1]
          simpa [hplain.2.2] using hrest
      · have hc' : isHighSurrogate c.val = false := by simpa using hc
        rw [hc', if_neg Bool.false_ne_true] at h
        rw [joined_cons hc', storableStr, storableFrom, hc', if_neg Bool.false_ne_true]
        split at h
        · cases h
        · rename_i hlow
          rw [if_neg hlow]
          simp only [Bool.not_false, Bool.true_and, Bool.and_eq_true] at h ⊢
          exact ⟨h.1, storableStr_joined h.2⟩

theorem keys_exactFields (d : Dict PyStr Json) : Dict.keys (exactFields d) = d.keys := by
  induction d with
  | nil => rfl
  | cons f d ih => exact congrArg (f.1 :: ·) ih

theorem mem_keys_collect {d : Dict PyStr Json} {fields : List (PyStr × Json)} {k : PyStr}
    (h : k ∈ (collect d fields).keys) : k ∈ d.keys ∨ ∃ f ∈ fields, f.1 = k := by
  induction fields generalizing d with
  | nil => exact .inl h
  | cons f fields ih =>
    rcases ih (d := d.set f.1 f.2) h with hk | ⟨g, hg, hk⟩
    · rw [Dict.keys_set] at hk
      split at hk
      · exact .inl hk
      · rcases List.mem_append.mp hk with hk | hk
        · exact .inl hk
        · exact .inr ⟨f, List.mem_cons_self, (List.mem_singleton.mp hk).symm⟩
    · exact .inr ⟨g, List.mem_cons_of_mem _ hg, hk⟩

/-- So it is for the object that came back. -/
theorem storable_names_back {members : List (PyStr × Json)} {d : Dict PyStr Json}
    (h : storable (.obj members) = true)
    (hback : exactFields d = exactFields (collect [] (joinedFields members))) :
    ∀ f ∈ d, storableStr f.1 = true := by
  intro f hf
  have hkey : f.1 ∈ (collect [] (joinedFields members)).keys := by
    have hmem : f.1 ∈ d.keys := List.mem_map_of_mem hf
    rwa [← keys_exactFields, hback, keys_exactFields] at hmem
  obtain ⟨g, hg, hkey⟩ := (mem_keys_collect hkey).resolve_left (by simp [Dict.keys])
  have hjoined : ∀ members : List (PyStr × Json), joinedFields members
      = members.map fun f => (f.1.joined, f.2.joined) := by
    intro members
    induction members with
    | nil => rfl
    | cons f members ih => rw [joinedFields, ih, List.map_cons]
  rw [hjoined] at hg
  obtain ⟨member, hmember, rfl⟩ := List.mem_map.mp hg
  rw [← hkey]
  exact storableStr_joined (storable_names h member hmember)

end RealtimeNotify.Python
