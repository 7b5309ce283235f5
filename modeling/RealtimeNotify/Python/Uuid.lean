import Mathlib.Data.List.DropRight
import Mathlib.Tactic.NormNum
import RealtimeNotify.Python.Text

/-!
# `uuid.UUID`: parsing and printing

`UUID.ofString` is `uuid.UUID(s)` with a `ValueError` as `none`, `UUID.str` is
`str(u)`. The constructor is permissive: it drops `urn:`, `uuid:`, braces and
hyphens and hands what is left to `int(hex, 16)`, which takes either letter
case, a sign, a `0x` prefix, single underscores between digits, blanks at both
ends and any Unicode decimal digit.

The facts the rest rests on are `UUID.ofString_str` (printing then parsing is
the identity) and `UUID.str_eq_iff` (a parsed text is the printed one exactly
when it is in the 8-4-4-4-12 form in lower case).
-/

namespace RealtimeNotify.Python

/-- `s.strip("{}")`. -/
def stripBraces (cs : List Char) : List Char :=
  (cs.dropWhile fun c => c == '{' || c == '}').rdropWhile fun c => c == '{' || c == '}'

/-! ## `int(s, 16)` -/

/-- The zeros of the Unicode decimal digit runs above ASCII (Unicode 14). -/
def decimalZeros : List Nat :=
  [0x660, 0x6f0, 0x7c0, 0x966, 0x9e6, 0xa66, 0xae6, 0xb66, 0xbe6, 0xc66, 0xce6, 0xd66, 0xde6,
    0xe50, 0xed0, 0xf20, 0x1040, 0x1090, 0x17e0, 0x1810, 0x1946, 0x19d0, 0x1a80, 0x1a90, 0x1b50,
    0x1bb0, 0x1c40, 0x1c50, 0xa620, 0xa8d0, 0xa900, 0xa9d0, 0xa9f0, 0xaa50, 0xabf0, 0xff10,
    0x104a0, 0x10d30, 0x11066, 0x110f0, 0x11136, 0x111d0, 0x112f0, 0x11450, 0x114d0, 0x11650,
    0x116c0, 0x11730, 0x118e0, 0x11950, 0x11c50, 0x11d50, 0x11da0, 0x16a60, 0x16ac0, 0x16b50,
    0x1d7ce, 0x1d7d8, 0x1d7e2, 0x1d7ec, 0x1d7f6, 0x1e140, 0x1e2f0, 0x1e950, 0x1fbf0]

/-- White space above ASCII. -/
def unicodeSpaces : List Nat :=
  [0x85, 0xa0, 0x1680, 0x2000, 0x2001, 0x2002, 0x2003, 0x2004, 0x2005, 0x2006, 0x2007, 0x2008,
    0x2009, 0x200a, 0x2028, 0x2029, 0x202f, 0x205f, 0x3000]

/-- How `int` reads a character: ASCII as it is, other decimal digits and
blanks as their ASCII forms, and anything else as a `?`, which no number has. -/
def toAscii (c : Char) : Char :=
  if c.toNat < 127 then c
  else if c.toNat ∈ unicodeSpaces then ' '
  else match decimalZeros.find? fun z => z ≤ c.toNat && c.toNat < z + 10 with
    | some z => Nat.digitChar (c.toNat - z)
    | none => '?'

def isAsciiSpace (c : Char) : Bool :=
  c == ' ' || (9 ≤ c.toNat && c.toNat ≤ 13)

/-- The value of an ASCII hexadecimal digit of either case. -/
def hexValue (c : Char) : Option Nat :=
  if 48 ≤ c.toNat ∧ c.toNat ≤ 57 then some (c.toNat - 48)
  else if 97 ≤ c.toNat ∧ c.toNat ≤ 102 then some (c.toNat - 87)
  else if 65 ≤ c.toNat ∧ c.toNat ≤ 70 then some (c.toNat - 55)
  else none

/-- The number a row of hexadecimal digits denotes; underscores count for nothing. -/
def ofHex (cs : List Char) : Nat :=
  cs.foldl (fun n c => match hexValue c with | some v => 16 * n + v | none => n) 0

/-- Underscores may only stand between two digits; `prev` is the character
before, an underscore at the start. -/
def wellPlaced (prev : Char) : List Char → Bool
  | [] => prev != '_'
  | c :: cs => !(prev == '_' && c == '_') && wellPlaced c cs

def splitSign : List Char → Bool × List Char
  | '+' :: cs => (false, cs)
  | '-' :: cs => (true, cs)
  | cs => (false, cs)

/-- The `0x` prefix, with the one underscore that may follow it. -/
def dropHexPrefix : List Char → List Char
  | '0' :: x :: cs =>
      if x == 'x' || x == 'X' then (match cs with | '_' :: ds => ds | ds => ds)
      else '0' :: x :: cs
  | cs => cs

/-- `int(s, 16)`, a `ValueError` as `none`. -/
def intBase16 (s : List Char) : Option Int :=
  let (negative, cs) := splitSign ((s.map toAscii).dropWhile isAsciiSpace)
  let cs := dropHexPrefix cs
  let isDigit := fun c => (hexValue c).isSome || c == '_'
  let digits := cs.takeWhile isDigit
  if wellPlaced '_' digits && ((cs.dropWhile isDigit).dropWhile isAsciiSpace).isEmpty then
    some (if negative then -(ofHex digits : Int) else ofHex digits)
  else none

/-! ## The constructor and `str` -/

/-- A 128-bit identifier. -/
structure UUID where
  int : Nat
  lt : int < 2 ^ 128
  deriving DecidableEq, Repr

/-- `uuid.UUID(s)`. -/
def UUID.ofString (s : String) : Option UUID :=
  let hex := removeAll "uuid:".toList (removeAll "urn:".toList s.toList)
  let hex := removeAll "-".toList (stripBraces hex)
  if hex.length = 32 then
    match intBase16 hex with
    | some n => if h : 0 ≤ n ∧ n < 2 ^ 128 then some ⟨n.toNat, by omega⟩ else none
    | none => none
  else none

/-- Thirty-two digits in five groups. -/
def hyphenate (hex : List Char) : List Char :=
  hex.take 8 ++ '-' :: ((hex.drop 8).take 4 ++ '-' :: ((hex.drop 12).take 4 ++
    '-' :: ((hex.drop 16).take 4 ++ '-' :: hex.drop 20)))

/-- `str(u)`. -/
def UUID.str (u : UUID) : String := String.ofList (hyphenate (digitRow 16 32 u.int))

def lowerHex : List Char := "0123456789abcdef".toList

/-- The text is thirty-two lower-case hexadecimal digits in groups of 8, 4, 4,
4 and 12 with a hyphen between groups. -/
def IsCanonical (s : String) : Prop :=
  ∃ hex : List Char, hex.length = 32 ∧ (∀ c ∈ hex, c ∈ lowerHex) ∧ s.toList = hyphenate hex

/-! ## Hexadecimal rows -/

theorem lowerHex_facts : ∀ c ∈ lowerHex, toAscii c = c ∧ isAsciiSpace c = false ∧
    (hexValue c).isSome = true ∧ c ∉ ['+', '-', 'x', 'X', '_', 'u', '{', '}'] := by
  -- along the list: characters are finitely many too
  have hall : lowerHex.all (fun c => decide (toAscii c = c ∧ isAsciiSpace c = false ∧
      (hexValue c).isSome = true ∧ c ∉ ['+', '-', 'x', 'X', '_', 'u', '{', '}'])) = true := by
    decide
  exact fun c hc => of_decide_eq_true (List.all_eq_true.mp hall c hc)

theorem digitChar_facts : ∀ d, d < 16 →
    Nat.digitChar d ∈ lowerHex ∧ hexValue (Nat.digitChar d) = some d := by
  decide

theorem lowerHex_digitChar : ∀ c ∈ lowerHex, ∃ d < 16, Nat.digitChar d = c := by
  have hall : lowerHex.all (fun c => (List.range 16).any fun d => Nat.digitChar d == c) = true := by
    decide
  intro c hc
  obtain ⟨d, hd, heq⟩ := List.any_eq_true.mp (List.all_eq_true.mp hall c hc)
  exact ⟨d, List.mem_range.mp hd, beq_iff_eq.mp heq⟩

theorem digitRow_lowerHex {w n : Nat} : ∀ c ∈ digitRow 16 w n, c ∈ lowerHex := by
  induction w generalizing n with
  | zero => simp [digitRow]
  | succ w ih =>
    intro c hc
    simp only [digitRow, List.mem_append, List.mem_singleton] at hc
    rcases hc with hc | rfl
    · exact ih c hc
    · exact (digitChar_facts _ (by omega)).1

theorem ofHex_append_digit (cs : List Char) {d : Nat} (hd : d < 16) :
    ofHex (cs ++ [Nat.digitChar d]) = 16 * ofHex cs + d := by
  simp [ofHex, List.foldl_append, (digitChar_facts d hd).2]

theorem ofHex_digitRow (w n : Nat) : ofHex (digitRow 16 w n) = n % 16 ^ w := by
  induction w generalizing n with
  | zero => simp [digitRow, ofHex, Nat.mod_one]
  | succ w ih =>
    rw [digitRow, ofHex_append_digit _ (by omega), ih, Nat.pow_succ, Nat.mul_comm (16 ^ w),
      Nat.mod_mul]
    omega

/-- A row of lower-case digits is the row printed for its value. -/
theorem digitRow_ofHex {cs : List Char} (h : ∀ c ∈ cs, c ∈ lowerHex) :
    digitRow 16 cs.length (ofHex cs) = cs := by
  induction cs using List.reverseRecOn with
  | nil => rfl
  | append_singleton cs c ih =>
    obtain ⟨d, hd, rfl⟩ := lowerHex_digitChar c (h c (by simp))
    rw [List.length_append, List.length_singleton, ofHex_append_digit _ hd, digitRow,
      show (16 * ofHex cs + d) / 16 = ofHex cs by omega,
      show (16 * ofHex cs + d) % 16 = d by omega, ih (fun c hc => h c (by simp [hc]))]

theorem ofHex_lt {cs : List Char} (h : ∀ c ∈ cs, c ∈ lowerHex) : ofHex cs < 16 ^ cs.length := by
  have hmod := ofHex_digitRow cs.length (ofHex cs)
  rw [digitRow_ofHex h] at hmod
  rw [hmod]
  exact Nat.mod_lt _ (Nat.pow_pos (by omega))

/-! ## Parsing a canonical text -/

theorem stripBraces_eq_self {cs : List Char} (h : ∀ c ∈ cs, c ≠ '{' ∧ c ≠ '}') :
    stripBraces cs = cs := by
  have hp : ∀ c ∈ cs, (c == '{' || c == '}') = false := by
    intro c hc
    simpa using h c hc
  have hd : cs.dropWhile (fun c => c == '{' || c == '}') = cs := by
    cases cs with
    | nil => rfl
    | cons c cs => simp only [List.dropWhile_cons, hp c (by simp), Bool.false_eq_true, if_false]
  rw [stripBraces, hd, List.rdropWhile_eq_self_iff]
  intro hne
  simpa using h _ (List.getLast_mem hne)

theorem mem_hyphenate {hex : List Char} {c : Char} (h : c ∈ hyphenate hex) :
    c ∈ hex ∨ c = '-' := by
  simp only [hyphenate, List.mem_append, List.mem_cons] at h
  rcases h with h | h | h | h | h | h | h | h | h
  · exact .inl (List.mem_of_mem_take h)
  · exact .inr h
  · exact .inl (List.mem_of_mem_drop (List.mem_of_mem_take h))
  · exact .inr h
  · exact .inl (List.mem_of_mem_drop (List.mem_of_mem_take h))
  · exact .inr h
  · exact .inl (List.mem_of_mem_drop (List.mem_of_mem_take h))
  · exact .inr h
  · exact .inl (List.mem_of_mem_drop h)

/-- Dropping the hyphens gives the digits back. -/
theorem filter_hyphenate {hex : List Char} (h : '-' ∉ hex) :
    (hyphenate hex).filter (· ≠ '-') = hex := by
  have hf : ∀ l : List Char, (∀ c ∈ l, c ∈ hex) → l.filter (· ≠ '-') = l := by
    intro l hl
    rw [List.filter_eq_self]
    intro c hc
    have hne : c ≠ '-' := fun he => h (he ▸ hl c hc)
    simpa using hne
  have ht : ∀ i : Nat, (∀ c ∈ (hex.drop i).take 4, c ∈ hex) := fun i c hc =>
    List.mem_of_mem_drop (List.mem_of_mem_take hc)
  have hsplit : ∀ i : Nat, (hex.drop i).take 4 ++ hex.drop (i + 4) = hex.drop i := by
    intro i
    rw [← List.drop_drop, List.take_append_drop]
  have hdash : ∀ l : List Char, ('-' :: l).filter (· ≠ '-') = l.filter (· ≠ '-') := by simp
  simp only [hyphenate, List.filter_append, hdash]
  rw [hf _ (fun c hc => List.mem_of_mem_take hc), hf _ (ht 8), hf _ (ht 12), hf _ (ht 16),
    hf _ (fun c hc => List.mem_of_mem_drop hc), hsplit 16, hsplit 12, hsplit 8,
    List.take_append_drop]

theorem wellPlaced_lowerHex {cs : List Char} {prev : Char} (hp : cs = [] → prev ≠ '_')
    (h : ∀ c ∈ cs, c ∈ lowerHex) : wellPlaced prev cs = true := by
  induction cs generalizing prev with
  | nil => simpa [wellPlaced] using hp rfl
  | cons c cs ih =>
    have hc : c ≠ '_' := by
      intro he
      have := (lowerHex_facts c (h c (by simp))).2.2.2
      simp [he] at this
    simp [wellPlaced, hc, ih (fun _ => hc) (fun d hd => h d (by simp [hd]))]

theorem splitSign_eq_self {c : Char} {cs : List Char} (hp : c ≠ '+') (hm : c ≠ '-') :
    splitSign (c :: cs) = (false, c :: cs) := by
  unfold splitSign
  split <;> simp_all

theorem dropHexPrefix_eq_self {c d : Char} {cs : List Char} (hx : d ≠ 'x') (hX : d ≠ 'X') :
    dropHexPrefix (c :: d :: cs) = c :: d :: cs := by
  unfold dropHexPrefix
  split
  · rename_i he
    simp only [List.cons.injEq] at he
    obtain ⟨rfl, rfl, rfl⟩ := he
    simp [hx, hX]
  · rfl

/-- On two or more lower-case digits `int` has nothing to skip. -/
theorem intBase16_lowerHex {cs : List Char} (hlen : 2 ≤ cs.length)
    (h : ∀ c ∈ cs, c ∈ lowerHex) : intBase16 cs = some (ofHex cs : Int) := by
  obtain ⟨c, d, cs, rfl⟩ : ∃ c d ds, cs = c :: d :: ds := by
    match cs, hlen with
    | c :: d :: ds, _ => exact ⟨c, d, ds, rfl⟩
  have hascii : (c :: d :: cs).map toAscii = c :: d :: cs := by
    conv_rhs => rw [← List.map_id (c :: d :: cs)]
    exact List.map_congr_left fun e he => (lowerHex_facts e (h e he)).1
  obtain ⟨-, hcs, -, hc⟩ := lowerHex_facts c (h c (by simp))
  obtain ⟨-, -, -, hd⟩ := lowerHex_facts d (h d (by simp))
  simp only [List.mem_cons, List.not_mem_nil, or_false, not_or] at hc hd
  have hall : ∀ e ∈ c :: d :: cs, ((hexValue e).isSome || e == '_') = true := by
    intro e he
    simp [(lowerHex_facts e (h e he)).2.2.1]
  have hdrop : (c :: d :: cs).dropWhile (fun e => (hexValue e).isSome || e == '_') = [] :=
    List.dropWhile_eq_nil_iff.mpr hall
  have htake : (c :: d :: cs).takeWhile (fun e => (hexValue e).isSome || e == '_')
      = c :: d :: cs := List.takeWhile_eq_self_iff.mpr hall
  have hspace : (c :: d :: cs).dropWhile isAsciiSpace = c :: d :: cs := by
    rw [List.dropWhile_cons, if_neg (by simp [hcs])]
  simp only [intBase16, hascii, hspace, splitSign_eq_self hc.1 hc.2.1,
    dropHexPrefix_eq_self hd.2.2.1 hd.2.2.2.1, htake, hdrop,
    wellPlaced_lowerHex (by simp) h]
  simp

/-- Parsing a canonical text gives the identifier with its digits. -/
theorem UUID.ofString_hyphenate {hex : List Char} (hlen : hex.length = 32)
    (h : ∀ c ∈ hex, c ∈ lowerHex) :
    UUID.ofString (String.ofList (hyphenate hex)) = some ⟨ofHex hex, by
      have := ofHex_lt h
      rw [hlen] at this
      exact lt_of_lt_of_eq this (by norm_num)⟩ := by
  have hout : ∀ c ∈ hyphenate hex, c ∉ ['u', '{', '}'] := by
    intro c hc
    rcases mem_hyphenate hc with hc | rfl
    · have := (lowerHex_facts c (h c hc)).2.2.2
      simp only [List.mem_cons, List.not_mem_nil, or_false, not_or] at this ⊢
      exact this.2.2.2.2.2
    · decide
  have hu : 'u' ∉ hyphenate hex := fun hc => by simpa using hout _ hc
  have hbrace : ∀ c ∈ hyphenate hex, c ≠ '{' ∧ c ≠ '}' := by
    intro c hc
    have := hout c hc
    simp only [List.mem_cons, List.not_mem_nil, or_false, not_or] at this
    exact this.2
  have hminus : '-' ∉ hex := fun hc => by simpa using (lowerHex_facts _ (h _ hc)).2.2.2
  have hlt : ofHex hex < 2 ^ 128 := by
    have := ofHex_lt h
    rw [hlen] at this
    exact lt_of_lt_of_eq this (by norm_num)
  have hrow : removeAll "-".toList (stripBraces (removeAll "uuid:".toList
      (removeAll "urn:".toList (String.ofList (hyphenate hex)).toList))) = hex := by
    have hl : (String.ofList (hyphenate hex)).toList = hyphenate hex := String.toList_ofList
    rw [hl, show "urn:".toList = 'u' :: "rn:".toList from rfl, removeAll_eq_self hu,
      show "uuid:".toList = 'u' :: "uid:".toList from rfl, removeAll_eq_self hu,
      stripBraces_eq_self hbrace, show "-".toList = ['-'] from rfl, removeAll_singleton,
      filter_hyphenate hminus]
  simp only [ofString, hrow, hlen, if_true, intBase16_lowerHex (by omega) h]
  rw [dif_pos ⟨by omega, by exact_mod_cast hlt⟩]
  simp

/-! ## Printing and parsing -/

theorem UUID.canonical_str (u : UUID) : IsCanonical u.str :=
  ⟨digitRow 16 32 u.int, digitRow_length _ _ _, digitRow_lowerHex, String.toList_ofList⟩

/-- Printing, then parsing. -/
@[simp] theorem UUID.ofString_str (u : UUID) : UUID.ofString u.str = some u := by
  rw [str, ofString_hyphenate (digitRow_length _ _ _) digitRow_lowerHex]
  have hval : ofHex (digitRow 16 32 u.int) = u.int := by
    rw [ofHex_digitRow, Nat.mod_eq_of_lt (lt_of_lt_of_eq u.lt (by norm_num))]
  cases u
  simp only [hval]

theorem UUID.str_injective : Function.Injective UUID.str := by
  intro u v h
  have := congrArg UUID.ofString h
  simpa using this

@[simp] theorem UUID.str_inj {u v : UUID} : u.str = v.str ↔ u = v :=
  UUID.str_injective.eq_iff

/-- A text that parses is the text printed for the identifier exactly when it
is canonical. -/
theorem UUID.str_eq_iff {s : String} {u : UUID} (h : UUID.ofString s = some u) :
    u.str = s ↔ IsCanonical s := by
  constructor
  · rintro rfl
    exact u.canonical_str
  · rintro ⟨hex, hlen, hmem, hs⟩
    have hs' : s = String.ofList (hyphenate hex) := by rw [← hs, String.ofList_toList]
    subst hs'
    rw [ofString_hyphenate hlen hmem, Option.some.injEq] at h
    subst h
    simp only [str]
    rw [← hlen, digitRow_ofHex hmem]

/-! ## A text that does not parse -/

theorem removeAll_cons {p c : Char} {pat cs : List Char} (h : p ≠ c) :
    removeAll (p :: pat) (c :: cs) = c :: removeAll (p :: pat) cs := by
  have hne : (p == c) = false := by simpa using h
  simp [removeAll, removeAllFrom, List.isPrefixOf, hne]

theorem stripBraces_cons {c : Char} {cs : List Char} (hl : c ≠ '{') (hr : c ≠ '}') :
    ∃ ds, stripBraces (c :: cs) = c :: ds := by
  have hc : (c == '{' || c == '}') = false := by simp [hl, hr]
  rw [stripBraces, List.dropWhile_cons, hc]
  obtain ⟨dropped, hd⟩ := List.rdropWhile_prefix (fun c => c == '{' || c == '}') (c :: cs)
  cases hk : (c :: cs).rdropWhile fun c => c == '{' || c == '}' with
  | nil =>
    rw [List.rdropWhile_eq_nil_iff] at hk
    exact absurd (hk c (by simp)) (by simp [hc])
  | cons d ds =>
    rw [hk, List.cons_append, List.cons.injEq] at hd
    exact ⟨ds, by simp [hk, hd.1]⟩

/-- A text that starts with an `l` is no identifier: `int` gets it as a digit. -/
theorem UUID.ofString_eq_none {s : String} {cs : List Char} (h : s.toList = 'l' :: cs) :
    UUID.ofString s = none := by
  obtain ⟨ds, hds⟩ : ∃ ds, stripBraces ('l' :: removeAll "uuid:".toList
      (removeAll "urn:".toList cs)) = 'l' :: ds := stripBraces_cons (by decide) (by decide)
  have hhex : removeAll "-".toList (stripBraces (removeAll "uuid:".toList
      (removeAll "urn:".toList s.toList))) = 'l' :: removeAll "-".toList ds := by
    rw [h, show "urn:".toList = 'u' :: "rn:".toList from rfl, removeAll_cons (by decide),
      show "uuid:".toList = 'u' :: "uid:".toList from rfl, removeAll_cons (by decide)]
    rw [show "urn:".toList = 'u' :: "rn:".toList from rfl,
      show "uuid:".toList = 'u' :: "uid:".toList from rfl] at hds
    rw [hds, show "-".toList = '-' :: [] from rfl, removeAll_cons (by decide)]
  have hint : ∀ es, intBase16 ('l' :: es) = none := by
    intro es
    have hascii : toAscii 'l' = 'l' := by decide
    have hspace : isAsciiSpace 'l' = false := by decide
    -- the digits of the number end before its first character
    simp only [intBase16, List.map_cons, hascii, List.dropWhile_cons, hspace, Bool.false_eq_true,
      if_false, splitSign, dropHexPrefix]
    rfl
  simp only [ofString, hhex, hint]
  split <;> rfl

end RealtimeNotify.Python
