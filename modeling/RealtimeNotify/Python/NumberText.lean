import RealtimeNotify.Postgres.Jsonb
import RealtimeNotify.Python.Rounding

/-!
# Numbers that `json.dumps` wrote

`json.loads` reads an integer back as it was, and a float as a decimal of the same
double: `repr` has the digits of the double, moves the point and adds zeros.
-/

namespace RealtimeNotify.Python

open RealtimeNotify.Postgres

/-- The double that a float is, written out in full. -/
def PyFloat.exact : PyFloat → PyFloat
  | decimal negative digits exponent =>
      if digits = 0 then decimal negative 0 0
      else match Double.ofDecimal digits exponent with
        | none => infinity negative
        | some x =>
            if x.mantissa = 0 then decimal negative 0 0
            else decimal negative (x.mantissa * 2 ^ x.exponent.toNat * 5 ^ (-x.exponent).toNat)
              (min x.exponent 0)
  | x => x

/-- `int` reads the digits of `n`. -/
def Limits.reads (limits : Limits) (n : Int) : Bool :=
  limits.maxDigits.all fun most => (Nat.toDigits 10 n.natAbs).length ≤ most

variable {ds frac e : List Char} {rest : PyStr} {x : Option Int}

theorem takeWhile_digits (hds : Digits ds) (hrest : NoDigit rest) :
    (ds.map codePoint ++ rest).takeWhile isDigit = ds.map codePoint := by
  have hall : ∀ c ∈ ds.map codePoint, isDigit c = true := by
    intro c hc
    obtain ⟨d, hd, rfl⟩ := List.mem_map.mp hc
    exact isDigit_codePoint (hds d hd)
  rw [List.takeWhile_append_of_pos hall]
  cases rest with
  | nil => simp
  | cons c s => simp [hrest c rfl]

/-- The value of a row of decimal digits. -/
theorem digitsValue_append (s t : PyStr) :
    digitsValue (s ++ t) = digitsValue s * 10 ^ t.length + digitsValue t := by
  induction t using List.reverseRecOn with
  | nil => simp [digitsValue]
  | append_singleton t c ih =>
    rw [← List.append_assoc]
    simp only [digitsValue, List.foldl_append, List.foldl_cons, List.foldl_nil,
      List.length_append, List.length_singleton] at ih ⊢
    rw [ih, Nat.pow_succ]
    ring

theorem digitsValue_toDigits (n : Nat) : digitsValue ((Nat.toDigits 10 n).map codePoint) = n := by
  have hdigit : ∀ d < 10, digitsValue [codePoint (Nat.digitChar d)] = d := by decide
  induction n using Nat.strongRecOn with
  | ind n ih =>
    rw [Nat.toDigits_eq_if (by decide)]
    split
    · rename_i hlt
      exact hdigit n hlt
    · rw [List.map_append, digitsValue_append, ih (n / 10) (by omega), List.map_singleton,
        hdigit _ (Nat.mod_lt _ (by decide)), List.length_singleton]
      omega

theorem digitsValue_zeros (n : Nat) :
    digitsValue ((List.replicate n '0').map codePoint) = 0 := by
  induction n with
  | zero => rfl
  | succ n ih =>
    rw [List.replicate_succ', List.map_append, digitsValue_append, ih]
    rfl

/-- How the end of a number is read. -/
structure ExponentReads (e : List Char) (x : Option Int) : Prop where
  noDigit : ∀ {rest}, Delimited rest → NoDigit (e.map codePoint ++ rest)
  noPoint : ∀ {rest}, Delimited rest → ∀ c, (e.map codePoint ++ rest).head? = some c →
    c ≠ codePoint '.'
  scan : ∀ {rest}, Delimited rest → scanExponent (e.map codePoint ++ rest) = (x, rest)

theorem exponentReads_nil : ExponentReads [] none where
  noDigit h := h.noDigit
  noPoint h := h.noPoint
  scan {rest} h := by
    cases rest with
    | nil => rfl
    | cons c s =>
      have hc := h c rfl
      simp only [numberChar, Bool.or_eq_false_iff, decide_eq_false_iff_not] at hc
      simp [scanExponent, hc]

theorem exponentReads_text (n : Int) : ExponentReads (exponentText n) (some n) where
  noDigit _ := by
    rintro _ ⟨⟩
    decide
  noPoint _ := by
    rintro _ ⟨⟩
    decide
  scan {rest} h := by
    obtain ⟨d, ds, hrow, hds, hvalue⟩ : ∃ d ds, (if (Nat.toDigits 10 n.natAbs).length < 2
        then '0' :: Nat.toDigits 10 n.natAbs else Nat.toDigits 10 n.natAbs) = d :: ds ∧
          Digits (d :: ds) ∧ digitsValue ((d :: ds).map codePoint) = n.natAbs := by
      have hall := toDigits_digits n.natAbs
      have hvalue := digitsValue_toDigits n.natAbs
      split
      · -- an exponent of one digit has a zero before it
        have hzero := digitsValue_append [codePoint '0'] ((Nat.toDigits 10 n.natAbs).map codePoint)
        have hnone : digitsValue [codePoint '0'] = 0 := rfl
        rw [hnone, Nat.zero_mul, Nat.zero_add, hvalue] at hzero
        exact ⟨_, _, rfl, (replicate_digits 1).append hall, hzero⟩
      · cases hrow : Nat.toDigits 10 n.natAbs with
        | nil => exact absurd hrow Nat.toDigits_ne_nil
        | cons d ds => exact ⟨d, ds, rfl, hrow ▸ hall, hrow ▸ hvalue⟩
    have hsign : ∀ t : PyStr, scanSign (codePoint (if n < 0 then '-' else '+') :: t)
        = (if n < 0 then -1 else 1, t) := by
      intro t
      split <;> rfl
    rw [exponentText, hrow]
    simp only [List.map_cons, List.cons_append, scanExponent, decide_true, Bool.true_or, if_true,
      hsign]
    rw [← List.cons_append, ← List.map_cons, takeWhile_digits hds h.noDigit,
      dropWhile_digits hds h.noDigit]
    rw [List.map_cons] at hvalue ⊢
    simp only [hvalue, Prod.mk.injEq, Option.some.injEq, and_true]
    split <;> omega

/-- The digits before the point: more than one only without a leading zero. -/
theorem scanWhole_digits {d : Char} (hwhole : Digits (d :: ds)) (hzero : d = '0' → ds = [])
    (hrest : NoDigit rest) :
    scanWhole ((d :: ds).map codePoint ++ rest) = ((d :: ds).map codePoint, rest) := by
  have hd := isDigit_codePoint (hwhole d List.mem_cons_self)
  have htail : Digits ds := fun c hc => hwhole c (List.mem_cons_of_mem _ hc)
  rw [List.map_cons, List.cons_append, scanWhole, if_pos hd]
  split
  · rename_i heq
    rw [hzero (codePoint_injective heq), List.map_nil, List.nil_append]
  · rw [takeWhile_digits htail hrest, dropWhile_digits htail hrest]

theorem scanFraction_digits (hne : frac ≠ []) (hfrac : Digits frac) (hrest : NoDigit rest) :
    scanFraction (('.' :: frac).map codePoint ++ rest) = (frac.map codePoint, rest) := by
  cases frac with
  | nil => exact absurd rfl hne
  | cons d ds =>
    have hd := isDigit_codePoint (hfrac d List.mem_cons_self)
    have htail : Digits ds := fun c hc => hfrac c (List.mem_cons_of_mem _ hc)
    simp only [List.map_cons, List.cons_append, scanFraction, hd, decide_true, Bool.and_self,
      if_true, takeWhile_digits htail hrest, dropWhile_digits htail hrest]

theorem scanFraction_none (h : ∀ c, rest.head? = some c → c ≠ codePoint '.') :
    scanFraction rest = ([], rest) := by
  unfold scanFraction
  split
  · rename_i c d s
    rw [if_neg (by simp [h c rfl])]
  · rfl

/-- A number from its parts, behind its sign. -/
theorem scanNumber_parts {m : Option Nat} {cs : List Char} {whole fraction s t u : PyStr}
    (negative : Bool) (hhead : ∃ d, cs.head? = some d ∧ d.isDigit = true)
    (hw : scanWhole (cs.map codePoint ++ rest) = (whole, s)) (hne : whole ≠ [])
    (hf : scanFraction s = (fraction, t)) (he : scanExponent t = (x, u)) :
    scanNumber m ((signText negative ++ cs).map codePoint ++ rest)
      = (makeNumber m negative whole fraction x).map (·, u) := by
  have hsign : (decide (((signText negative ++ cs).map codePoint ++ rest).head?
      = some (codePoint '-'))) = negative ∧
        (if negative then ((signText negative ++ cs).map codePoint ++ rest).tail
          else (signText negative ++ cs).map codePoint ++ rest) = cs.map codePoint ++ rest := by
    cases negative with
    | true => exact ⟨rfl, rfl⟩
    | false =>
      obtain ⟨d, hd, hdigit⟩ := hhead
      cases cs with
      | nil => cases hd
      | cons c cs =>
        obtain rfl := Option.some.inj hd
        refine ⟨decide_eq_false fun heq => ?_, rfl⟩
        rw [codePoint_injective (Option.some.inj heq)] at hdigit
        cases hdigit
  rw [scanNumber]
  simp only [hsign.1, hsign.2, hw, hne, if_false, hf, he]

/-- A text that is read whole as the float `± digits · 10 ^ exponent`. -/
structure FloatReads (cs : List Char) (digits : Nat) (exponent : Int) : Prop where
  head : ∃ d, cs.head? = some d ∧ d.isDigit = true
  scan : ∀ {rest}, Delimited rest → ∀ m negative,
    scanNumber m ((signText negative ++ cs).map codePoint ++ rest)
      = .ok (.float (.decimal negative digits exponent), rest)

section Parts

variable {d : Char} (hwhole : Digits (d :: ds)) (hzero : d = '0' → ds = [])
include hwhole hzero

theorem floatReads_fraction (hne : frac ≠ []) (hfrac : Digits frac) (he : ExponentReads e x) :
    FloatReads (d :: ds ++ '.' :: (frac ++ e)) (digitsValue ((d :: ds ++ frac).map codePoint))
      (x.getD 0 - frac.length) := by
  have hhead : ∃ c, (d :: ds ++ '.' :: (frac ++ e)).head? = some c ∧ c.isDigit = true :=
    ⟨d, rfl, hwhole d List.mem_cons_self⟩
  refine ⟨hhead, fun {rest} hrest m negative => ?_⟩
  have hpoint : NoDigit (('.' :: frac).map codePoint ++ (e.map codePoint ++ rest)) := by
    rintro _ ⟨⟩
    decide
  have htext : (d :: ds ++ '.' :: (frac ++ e)).map codePoint ++ rest
      = (d :: ds).map codePoint ++ (('.' :: frac).map codePoint ++ (e.map codePoint ++ rest)) := by
    simp
  have hnone : (frac.map codePoint = []) = False := by simpa using hne
  rw [scanNumber_parts negative hhead (htext ▸ scanWhole_digits hwhole hzero hpoint) (by simp)
    (scanFraction_digits hne hfrac (he.noDigit hrest)) (he.scan hrest), makeNumber]
  simp [hnone, Except.map]

theorem floatReads_exponent {n : Int} (he : ExponentReads e (some n)) :
    FloatReads (d :: ds ++ e) (digitsValue ((d :: ds).map codePoint)) n := by
  have hhead : ∃ c, (d :: ds ++ e).head? = some c ∧ c.isDigit = true :=
    ⟨d, rfl, hwhole d List.mem_cons_self⟩
  refine ⟨hhead, fun {rest} hrest m negative => ?_⟩
  have htext : (d :: ds ++ e).map codePoint ++ rest
      = (d :: ds).map codePoint ++ (e.map codePoint ++ rest) := by
    simp
  rw [scanNumber_parts negative hhead (htext ▸ scanWhole_digits hwhole hzero (he.noDigit hrest))
    (by simp) (scanFraction_none (he.noPoint hrest)) (he.scan hrest), makeNumber]
  simp [Except.map]

end Parts

/-- An integer is read with as many digits as the limit lets through. -/
theorem scanNumber_int {limits : Limits} {n : Int} (hn : limits.reads n = true)
    (hrest : Delimited rest) :
    scanNumber limits.maxDigits ((intRepr n).map codePoint ++ rest) = .ok (.int n, rest) := by
  obtain ⟨d, ds, hrow, hzero⟩ : ∃ d ds, Nat.toDigits 10 n.natAbs = d :: ds ∧
      (d = '0' → ds = []) := by
    by_cases hn : n.natAbs = 0
    · exact ⟨'0', [], by rw [hn, Nat.toDigits_zero], fun _ => rfl⟩
    · obtain ⟨d, ds, hrow, hd⟩ := toDigits_head hn
      exact ⟨d, ds, hrow, fun h => absurd h hd⟩
  have hall := toDigits_digits n.natAbs
  have hvalue := digitsValue_toDigits n.natAbs
  have hlimit : (limits.maxDigits.any fun most => decide (most < (d :: ds).length)) = false := by
    rw [Limits.reads, hrow] at hn
    cases hmost : limits.maxDigits with
    | none => rfl
    | some most =>
      rw [hmost] at hn
      simpa using hn
  rw [hrow] at hall hvalue
  have hwhole := scanWhole_digits hall hzero hrest.noDigit
  rw [intRepr, hrow, scanNumber_parts _ ⟨d, rfl, hall d List.mem_cons_self⟩ hwhole (by simp)
    (scanFraction_none hrest.noPoint) (exponentReads_nil.scan hrest), makeNumber]
  simp only [decide_true, Option.isNone_none, Bool.and_self, if_true, List.length_map, hlimit,
    Bool.false_eq_true, if_false, hvalue, decide_eq_true_eq, Except.map]
  have hsigned : (if n < 0 then -(n.natAbs : Int) else n.natAbs) = n := by
    split <;> omega
  rw [hsigned]

theorem FloatReads.of_eq {cs cs' : List Char} {digits digits' : Nat} {exponent exponent' : Int}
    (h : FloatReads cs digits exponent) (hcs : cs = cs') (hdigits : digits = digits')
    (hexponent : exponent = exponent') : FloatReads cs' digits' exponent' := by
  subst hcs hdigits hexponent
  exact h

/-- One case for each of the forms of `repr`. The point is moved and zeros are added,
which the exponent makes up for. -/
theorem floatReads_formatRepr {d : Char} (hrow : Digits (d :: ds)) (hd : d ≠ '0') (decpt : Int) :
    ∃ (zeros : Nat) (exponent : Int), exponent + zeros = decpt - (d :: ds).length ∧
      FloatReads (formatRepr (d :: ds) decpt)
        (digitsValue ((d :: ds).map codePoint) * 10 ^ zeros) exponent := by
  have hzero : ∀ {cs : List Char}, d = '0' → cs = [] := fun h => absurd h hd
  have htail : Digits ds := fun c hc => hrow c (List.mem_cons_of_mem _ hc)
  have hnull : Digits ['0'] := replicate_digits 1
  have hhead : Digits [d] := by
    intro c hc
    exact hrow c (List.mem_singleton.mp hc ▸ List.mem_cons_self)
  unfold formatRepr
  split
  · -- all digits stand behind the point
    have hfrac := (replicate_digits (-decpt).toNat).append hrow
    refine ⟨0, decpt - (d :: ds).length, by omega, ?_⟩
    refine (floatReads_fraction hnull (fun _ => rfl) (by simp) hfrac exponentReads_nil).of_eq
      (by simp) ?_ ?_
    · rw [List.map_append, digitsValue_append, List.map_append, digitsValue_append,
        digitsValue_zeros]
      simp [digitsValue, codePoint]
    · simp only [Option.getD_none, List.length_append, List.length_replicate]
      omega
  · split
    · split
      · -- the point stands among the digits
        rename_i hlt
        obtain ⟨k, hk⟩ : ∃ k, decpt.toNat = k + 1 := ⟨decpt.toNat - 1, by omega⟩
        rw [hk] at hlt ⊢
        have htake : Digits (d :: ds.take k) :=
          hhead.append fun c hc => htail c (List.mem_of_mem_take hc)
        have hdrop : Digits (ds.drop k) := fun c hc => htail c (List.mem_of_mem_drop hc)
        have hne : ds.drop k ≠ [] := by
          rw [Ne, List.drop_eq_nil_iff]
          simp only [List.length_cons] at hlt
          omega
        refine ⟨0, decpt - (d :: ds).length, by omega, ?_⟩
        refine (floatReads_fraction htake hzero hne hdrop exponentReads_nil).of_eq (by simp)
          (by simp) ?_
        simp only [Option.getD_none, List.length_drop, List.length_cons] at hlt ⊢
        omega
      · -- zeros stand before the point
        rename_i hpos hle
        have hwhole : Digits (d :: (ds ++ List.replicate (decpt.toNat - (d :: ds).length) '0')) :=
          hrow.append (replicate_digits _)
        refine ⟨decpt.toNat - (d :: ds).length + 1, -1, by omega, ?_⟩
        refine (floatReads_fraction hwhole hzero (by simp) hnull exponentReads_nil).of_eq
          (by simp) ?_ rfl
        rw [← List.cons_append, List.append_assoc, List.map_append, digitsValue_append,
          ← List.replicate_succ', digitsValue_zeros, Nat.add_zero, List.length_map,
          List.length_replicate]
    · -- one digit before the point, and the exponent printed
      refine ⟨0, decpt - (d :: ds).length, by omega, ?_⟩
      cases ds with
      | nil =>
        exact (floatReads_exponent hhead hzero (exponentReads_text (decpt - 1))).of_eq
          (by simp) (by simp) (by simp)
      | cons c ds =>
        refine (floatReads_fraction hhead hzero (by simp) htail
          (exponentReads_text (decpt - 1))).of_eq (by simp) (by simp) ?_
        simp only [Option.getD_some, List.length_cons]
        omega

/-- The zeros at the end of a row go into the exponent. -/
theorem digitsValue_rdropWhile (row : List Char) :
    digitsValue (row.map codePoint) = digitsValue ((row.rdropWhile (· = '0')).map codePoint) *
      10 ^ (row.length - (row.rdropWhile (· = '0')).length) := by
  have hsplit := List.rdropWhile_append_rtakeWhile (p := (· = '0')) (l := row)
  have hzeros : row.rtakeWhile (· = '0') = List.replicate (row.rtakeWhile (· = '0')).length '0' :=
    List.eq_replicate_of_mem fun c hc => by simpa using List.mem_rtakeWhile_imp hc
  have hlength := congrArg List.length hsplit
  rw [List.length_append] at hlength
  conv_lhs => rw [← hsplit, List.map_append, digitsValue_append, hzeros, digitsValue_zeros]
  rw [Nat.add_zero, List.length_map, List.length_replicate]
  congr 2
  omega

theorem floatReads_decimalRepr {digits : Nat} (hdigits : digits ≠ 0) (exponent : Int) :
    ∃ (digits' : Nat) (exponent' : Int), digits' ≠ 0 ∧
      Double.ofDecimal digits' exponent' = Double.ofDecimal digits exponent ∧
      FloatReads (decimalRepr digits exponent) digits' exponent' := by
  obtain ⟨d, ds, hrow, hd⟩ := toDigits_head hdigits
  have hall := toDigits_digits digits
  have hvalue := digitsValue_toDigits digits
  rw [digitsValue_rdropWhile] at hvalue
  rw [hrow] at hall hvalue
  have hkept := List.rdropWhile_prefix (· = '0') (d :: ds)
  simp only [decimalRepr, hrow]
  cases hdrop : (d :: ds).rdropWhile (· = '0') with
  | nil =>
    have hzero := List.rdropWhile_eq_nil_iff.mp hdrop d List.mem_cons_self
    exact absurd (of_decide_eq_true hzero) hd
  | cons c cs =>
    rw [hdrop] at hkept hvalue
    have hlength := hkept.length_le
    obtain ⟨rfl, hcs⟩ := List.cons_prefix_cons.mp hkept
    obtain ⟨zeros, exponent', hexponent, hreads⟩ := floatReads_formatRepr
      (fun b hb => hall b (hkept.subset hb)) hd ((c :: ds).length + exponent)
    generalize digitsValue ((c :: cs).map codePoint) = m at hreads hvalue
    have hm : m ≠ 0 := by
      rintro rfl
      rw [Nat.zero_mul] at hvalue
      exact hdigits hvalue.symm
    refine ⟨_, _, Nat.mul_ne_zero hm (by positivity), ?_, hreads⟩
    rw [← hvalue, Double.ofDecimal_zeros, Double.ofDecimal_zeros]
    congr 1
    omega

theorem floatReads_zero : FloatReads "0.0".toList 0 (-1) :=
  have hdigit : Digits ['0'] := replicate_digits 1
  floatReads_fraction hdigit (fun _ => rfl) (by decide) hdigit exponentReads_nil

/-- The digits printed for a double round to it. -/
theorem Double.shortest_rounds {x : Double} {written : Nat × Int}
    (h : Double.ofDecimal written.1 written.2 = some x) :
    Double.ofDecimal (x.shortest written).1 (x.shortest written).2 = some x := by
  simp only [Double.shortest]
  generalize hfound : List.findSome? _ (List.range' 1 17) = found
  cases found with
  | none => exact h
  | some found =>
    obtain ⟨n, -, hn⟩ := List.exists_of_findSome?_eq_some hfound
    obtain ⟨d, hd, rfl⟩ := Option.map_eq_some_iff.mp hn
    have hrounds := List.find?_some hd
    exact of_decide_eq_true hrounds

/-- What is printed of a float is read as one of the same double. -/
theorem repr_reads (x : PyFloat) :
    (∃ negative cs digits exponent, x.repr = signText negative ++ cs ∧
      FloatReads cs digits exponent ∧
      (PyFloat.decimal negative digits exponent).exact = x.exact) ∨
    x = .nan ∧ x.repr = "NaN".toList ∨
    ∃ negative, x.repr = signText negative ++ "Infinity".toList ∧
      x.exact = .infinity negative := by
  cases x with
  | nan => exact .inr (.inl ⟨rfl, rfl⟩)
  | infinity negative => exact .inr (.inr ⟨negative, rfl, rfl⟩)
  | decimal negative digits exponent =>
    by_cases hdigits : digits = 0
    · refine .inl ⟨negative, _, _, _, ?_, floatReads_zero, ?_⟩
      · rw [PyFloat.repr, if_pos hdigits]
      · rw [PyFloat.exact, PyFloat.exact, if_pos rfl, if_pos hdigits]
    · cases hx : Double.ofDecimal digits exponent with
      | none =>
        -- beyond the largest double
        refine .inr (.inr ⟨negative, ?_, ?_⟩)
        · simp only [PyFloat.repr, hdigits, if_false, hx]
        · simp only [PyFloat.exact, hdigits, if_false, hx]
      | some x =>
        refine .inl ⟨negative, ?_⟩
        by_cases hzero : x.mantissa = 0
        · -- below the smallest double
          refine ⟨_, _, _, ?_, floatReads_zero, ?_⟩
          · simp only [PyFloat.repr, hdigits, if_false, hx, hzero, if_true]
          · simp only [PyFloat.exact, hdigits, if_false, hx, hzero, if_true]
        · have hne : (x.shortest (digits, exponent)).1 ≠ 0 := shortest_ne_zero hdigits
          obtain ⟨m, e, hm, hround, hreads⟩ :=
            floatReads_decimalRepr hne (x.shortest (digits, exponent)).2
          rw [Double.shortest_rounds hx] at hround
          refine ⟨_, _, _, ?_, hreads, ?_⟩
          · simp only [PyFloat.repr, hdigits, if_false, hx, hzero]
          · simp only [PyFloat.exact, hm, hdigits, if_false, hx, hround]

end RealtimeNotify.Python
