import Mathlib.Algebra.GroupWithZero.Nat
import Mathlib.Data.List.Basic

/-!
# Strings as JavaScript cuts them
-/

namespace VegaRevenue

/-- The white space and the line terminators of ECMAScript. -/
def jsSpace (c : Char) : Bool :=
  c = '\t' || c = '\n' || c = '\x0b' || c = '\x0c' || c = '\r' || c = ' ' || c = '\u00a0' ||
    c = '\u1680' || ('\u2000' ≤ c && c ≤ '\u200a') || c = '\u2028' || c = '\u2029' ||
    c = '\u202f' || c = '\u205f' || c = '\u3000' || c = '\ufeff'

/-- `s.trim()`. -/
def trim (s : String) : String :=
  String.ofList ((s.toList.dropWhile jsSpace).reverse.dropWhile jsSpace).reverse

/-- `s.toUpperCase()`, as far as a comparison with a word of ASCII letters tells: beside the ASCII
letters, the dotless i and the long s have an upper case among them. -/
def toUpperCase (s : String) : String :=
  s.map fun c => if c = 'ı' then 'I' else if c = 'ſ' then 'S' else c.toUpper

/-- `s.length`, in UTF-16 units. -/
def utf16Length (s : String) : Nat :=
  (s.toList.map fun c => if c.val < 0x10000 then 1 else 2).sum

/-- `s.replace(/\s+/g, ' ')`; `after` says that white space went before. -/
def collapseSpaces (after : Bool) : List Char → List Char
  | [] => []
  | c :: cs =>
    if jsSpace c then (if after then [] else [' ']) ++ collapseSpaces true cs
    else c :: collapseSpaces false cs

/-- `s.split(/\s+/)` without the empty parts. -/
def words (s : String) : List String :=
  ((s.toList.splitOnP jsSpace).filter (· ≠ [])).map String.ofList

example : trim " \tA b\n" = "A b" := by decide

end VegaRevenue
