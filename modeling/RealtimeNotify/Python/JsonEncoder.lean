import RealtimeNotify.Python.Codecs
import RealtimeNotify.Python.Float

/-!
# `json.dumps`

The encoder of the standard library with its default settings: all of the text is
ASCII, `NaN` and the infinities are written by name, and half of a surrogate pair
is written like any other code unit. The recursion limit is left out.
-/

namespace RealtimeNotify.Python

/-- The letter behind the backslash, for the characters that have one. -/
def shortEscapes : Dict CodePoint CodePoint :=
  [('"', '"'), ('\\', '\\'), ('\x08', 'b'), ('\x0c', 'f'), ('\n', 'n'), ('\r', 'r'),
    ('\t', 't')].map fun p => (codePoint p.1, codePoint p.2)

/-- `'\\u{0:04x}'.format(n)` -/
def escapeUnit (n : Nat) : PyStr :=
  codePoint '\\' :: codePoint 'u' :: (digitRow 16 4 n).map codePoint

/-- What `py_encode_basestring_ascii` writes for a character. -/
def escapeChar (c : CodePoint) : PyStr :=
  match shortEscapes.get c with
  | some e => [codePoint '\\', e]
  | none =>
      if 0x20 ≤ c.val ∧ c.val ≤ 0x7e then [c]
      else if c.val < 0x10000 then escapeUnit c.val
      else escapeUnit (0xd800 + (c.val - 0x10000) / 0x400) ++
        escapeUnit (0xdc00 + (c.val - 0x10000) % 0x400)

def encodeString (s : PyStr) : PyStr :=
  codePoint '"' :: (s.flatMap escapeChar ++ [codePoint '"'])

/-- `int.__repr__` -/
def intRepr (n : Int) : List Char := signText (n < 0) ++ Nat.toDigits 10 n.natAbs

mutual

/-- `json.dumps(value)` -/
def jsonDumps : Json → PyStr
  | .null => PyStr.ofString "null"
  | .bool b => PyStr.ofString (if b then "true" else "false")
  | .int n => (intRepr n).map codePoint
  | .float x => x.repr.map codePoint
  | .str s => encodeString s
  | .arr items => codePoint '[' :: (dumpsItems items ++ [codePoint ']'])
  | .obj fields => codePoint '{' :: (dumpsFields fields ++ [codePoint '}'])

/-- The items with `", "` between them. -/
def dumpsItems : List Json → PyStr
  | [] => []
  | [v] => jsonDumps v
  | v :: w :: vs => jsonDumps v ++ (PyStr.ofString ", " ++ dumpsItems (w :: vs))

/-- The members with `", "` between them and `": "` behind each key. -/
def dumpsFields : List (PyStr × Json) → PyStr
  | [] => []
  | [(k, v)] => encodeString k ++ (PyStr.ofString ": " ++ jsonDumps v)
  | (k, v) :: f :: fs =>
      encodeString k ++ (PyStr.ofString ": " ++ (jsonDumps v ++
        (PyStr.ofString ", " ++ dumpsFields (f :: fs))))

end

example : jsonDumps (.obj [(PyStr.ofString "a\n", .arr [.int (-12), .float .nan])])
    = PyStr.ofString "\x7b\"a\\n\": [-12, NaN]\x7d" := by decide +kernel

end RealtimeNotify.Python
