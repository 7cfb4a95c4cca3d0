import Mathlib.Algebra.Field.Rat
import Mathlib.Algebra.Order.Ring.Rat
import PhoRent.Lib.Binary

/-!
# JavaScript values under `>=`, `-` and `+`

The three operators convert before they compute, each in its own way: `-`
turns both sides into numbers, `>=` does so unless both are strings, and `+`
joins strings as soon as one side is one. This file writes the conversions
out, for the values JSON and a document store can hold, plus `undefined`.

A number is a double, and a sum is rounded to one. The two zeros are one value
here: none of the conversions tells them apart.
-/

namespace Js

abbrev Double := Binary.Num Binary.double

inductive Number
  | nan
  | negInf
  | fin (d : Double)
  | posInf
  deriving DecidableEq

/-- A value: what JSON denotes, and `undefined`. -/
inductive Value
  | undefined
  | null
  | bool (b : Bool)
  | num (n : Number)
  | str (s : String)
  | arr (l : List Value)
  | obj (l : List (String × Value))

/-! ## Arithmetic -/

namespace Number

/-- The number for a mathematical value: the nearest double, or an infinity
beyond the largest. -/
def ofRat (q : ℚ) : Number :=
  if h : |q| < Binary.double.overflow then .fin (.round q h)
  else if 0 < q then .posInf
  else .negInf

def neg : Number → Number
  | .nan => .nan
  | .negInf => .posInf
  | .fin d => .fin d.neg
  | .posInf => .negInf

def add : Number → Number → Number
  | .nan, _ | _, .nan => .nan
  | .posInf, .negInf | .negInf, .posInf => .nan
  | .posInf, _ | _, .posInf => .posInf
  | .negInf, _ | _, .negInf => .negInf
  | .fin a, .fin b => .ofRat (a.val + b.val)

def sub (a b : Number) : Number := a.add b.neg

def ge : Number → Number → Bool
  | .nan, _ | _, .nan => false
  | .posInf, _ | _, .negInf => true
  | .negInf, _ | _, .posInf => false
  | .fin a, .fin b => decide (b.val ≤ a.val)

/-! ## Numbers to strings

`s`, `k` and `n` are the numbers of the language's own description: `s` has
`k` digits, `k` is as small as possible, and `s * 10 ^ (n - k)` is read back
as the number. Doubles have such an `s` of 17 digits at most. -/

/-- The integers `s` with `k` digits to try for a positive `q`, each with its
exponent of ten: the two on both sides of `q`, the nearer one first. -/
def decimals (q : ℚ) (k : ℕ) : List (ℕ × ℤ) :=
  let x := Int.log 10 q + 1 - k
  let near := Binary.roundEven (q / 10 ^ x)
  let low := ⌊q / 10 ^ x⌋
  [(near.toNat, x), (if near = low then low.toNat + 1 else low.toNat, x)]

/-- The decimal with the fewest digits that is read back as `d`. -/
def shortest (d : Double) : ℕ × ℤ :=
  (((List.range 17).flatMap fun k => decimals d.val (k + 1)).find? fun e =>
    ofRat (e.1 * 10 ^ e.2) = .fin d).getD (0, 0)

/-- Trailing zeros of the digits of `m`, at most `fuel` of them. -/
def trailingZeros : ℕ → ℕ → ℕ
  | 0, _ => 0
  | fuel + 1, m =>
      if m ≠ 0 ∧ m % 10 = 0 then trailingZeros fuel (m / 10) + 1 else 0

def zeros (k : ℕ) : String := String.ofList (List.replicate k '0')

/-- `Number::toString` of a positive number. -/
def posToString (d : Double) : String :=
  let (m, x) := shortest d
  let t := trailingZeros m m
  let digits := (m / 10 ^ t).repr
  let k := digits.length
  let n : ℤ := (k : ℤ) + t + x
  if (k : ℤ) ≤ n ∧ n ≤ 21 then digits ++ zeros (n - k).toNat
  else if 0 < n ∧ n ≤ 21 then
    String.ofList (digits.toList.take n.toNat) ++ "." ++
      String.ofList (digits.toList.drop n.toNat)
  else if -6 < n ∧ n ≤ 0 then "0." ++ zeros (-n).toNat ++ digits
  else
    let e := n - 1
    let sign := if e < 0 then "-" else "+"
    let point := if k = 1 then "" else "."
    String.ofList (digits.toList.take 1) ++ point ++
      String.ofList (digits.toList.drop 1) ++ "e" ++ sign ++ e.natAbs.repr

def toStr : Number → String
  | .nan => "NaN"
  | .negInf => "-Infinity"
  | .posInf => "Infinity"
  | .fin d =>
      if d.val = 0 then "0"
      else if d.val < 0 then "-" ++ posToString d.neg
      else posToString d

/-! ## Strings to numbers -/

def isSpace (c : Char) : Bool :=
  c.toNat ∈ [9, 10, 11, 12, 13, 32, 160, 5760, 8232, 8233, 8239, 8287, 12288,
    65279] || (8192 ≤ c.toNat && c.toNat ≤ 8202)

def digitVal (c : Char) : ℕ :=
  if c.isDigit then c.toNat - 48
  else if c.isLower then c.toNat - 87
  else c.toNat - 55

def natOf (base : ℕ) (l : List Char) : ℕ :=
  l.foldl (fun acc c => acc * base + digitVal c) 0

/-- The digits of a literal after its `0x`, `0o` or `0b`. -/
def radixLiteral (base : ℕ) (ok : Char → Bool) (l : List Char) : Number :=
  if l ≠ [] ∧ l.all ok then .ofRat (natOf base l) else .nan

/-- The exponent part of a decimal literal, which may be missing. -/
def exponent : List Char → Option ℤ
  | [] => some 0
  | e :: rest =>
      if e = 'e' ∨ e = 'E' then
        let (sign, digits) : ℤ × List Char :=
          match rest with
          | '-' :: r => (-1, r)
          | '+' :: r => (1, r)
          | r => (1, r)
        if digits ≠ [] ∧ digits.all Char.isDigit then
          some (sign * natOf 10 digits)
        else none
      else none

def decimal (l : List Char) : Number :=
  if l = "Infinity".toList then .posInf
  else
    let whole := l.takeWhile Char.isDigit
    let (frac, rest) :=
      match l.dropWhile Char.isDigit with
      | '.' :: r => (r.takeWhile Char.isDigit, r.dropWhile Char.isDigit)
      | r => ([], r)
    if whole = [] ∧ frac = [] then .nan
    else
      match exponent rest with
      | none => .nan
      | some z =>
          .ofRat ((natOf 10 (whole ++ frac) : ℚ) * 10 ^ (z - frac.length))

/-- `ToNumber` of a string. -/
def ofStr (s : String) : Number :=
  let l := ((s.toList.dropWhile isSpace).reverse.dropWhile isSpace).reverse
  match l with
  | [] => .ofRat 0
  | '0' :: 'x' :: r | '0' :: 'X' :: r =>
      radixLiteral 16 (fun c => c.isDigit || ('a' ≤ c && c ≤ 'f') ||
        ('A' ≤ c && c ≤ 'F')) r
  | '0' :: 'o' :: r | '0' :: 'O' :: r =>
      radixLiteral 8 (fun c => '0' ≤ c && c ≤ '7') r
  | '0' :: 'b' :: r | '0' :: 'B' :: r =>
      radixLiteral 2 (fun c => c == '0' || c == '1') r
  | '-' :: r => (decimal r).neg
  | '+' :: r => decimal r
  | r => decimal r

end Number

/-! ## Conversions of values

An object converts as JSON gives it: it has no method of its own, so it turns
into the same text whatever it holds. -/

mutual

def Value.toStr : Value → String
  | .undefined => "undefined"
  | .null => "null"
  | .bool b => if b then "true" else "false"
  | .num n => n.toStr
  | .str s => s
  | .arr l => joined l
  | .obj _ => "[object Object]"

def joined : List Value → String
  | [] => ""
  | [v] => elementStr v
  | v :: w :: rest => elementStr v ++ "," ++ joined (w :: rest)

/-- An element of a joined array: `undefined` and `null` leave a gap. -/
def elementStr : Value → String
  | .undefined => ""
  | .null => ""
  | .bool b => if b then "true" else "false"
  | .num n => n.toStr
  | .str s => s
  | .arr l => joined l
  | .obj _ => "[object Object]"

end

def Value.toPrimitive : Value → Value
  | .arr l => .str (joined l)
  | .obj _ => .str "[object Object]"
  | v => v

def Value.toNumber (v : Value) : Number :=
  match v.toPrimitive with
  | .null => .ofRat 0
  | .bool b => .ofRat (if b then 1 else 0)
  | .num n => n
  | .str s => .ofStr s
  | _ => .nan

/-- The UTF-16 code units of a string, which string comparison goes by. -/
def codeUnits (s : String) : List ℕ :=
  s.toList.flatMap fun c =>
    if c.toNat < 65536 then [c.toNat]
    else [55296 + (c.toNat - 65536) / 1024, 56320 + (c.toNat - 65536) % 1024]

def Value.ge (a b : Value) : Bool :=
  match a.toPrimitive, b.toPrimitive with
  | .str s, .str t => !decide (codeUnits s < codeUnits t)
  | p, q => p.toNumber.ge q.toNumber

def Value.sub (a b : Value) : Value := .num (a.toNumber.sub b.toNumber)

def Value.add (a b : Value) : Value :=
  match a.toPrimitive, b.toPrimitive with
  | .str s, q => .str (s ++ q.toStr)
  | p, .str t => .str (p.toStr ++ t)
  | p, q => .num (p.toNumber.add q.toNumber)

/-- A property read; `none` where reading one throws. -/
def Value.prop (v : Value) (name : String) : Option Value :=
  match v with
  | .undefined | .null => none
  | .obj l => some ((l.lookup name).getD .undefined)
  | _ => some .undefined

/-! ## Next to a number -/

theorem Value.toNumber_num (n : Number) : (Value.num n).toNumber = n := rfl

theorem Value.add_num (a b : Number) :
    (Value.num a).add (.num b) = .num (a.add b) := rfl

@[simp] theorem Value.toPrimitive_toPrimitive (v : Value) :
    v.toPrimitive.toPrimitive = v.toPrimitive := by
  cases v <;> rfl

theorem Value.toNumber_toPrimitive (v : Value) :
    v.toPrimitive.toNumber = v.toNumber := by
  rw [Value.toNumber, Value.toPrimitive_toPrimitive, Value.toNumber]

theorem Value.num_ge (a : Number) (v : Value) :
    (Value.num a).ge v = a.ge v.toNumber := by
  rw [← Value.toNumber_toPrimitive v]
  unfold Value.ge
  cases v.toPrimitive <;> rfl

theorem Value.num_add (a : Number) {v : Value}
    (h : ∀ s, v.toPrimitive ≠ .str s) :
    (Value.num a).add v = .num (a.add v.toNumber) := by
  rw [← Value.toNumber_toPrimitive v]
  unfold Value.add
  cases hv : v.toPrimitive with
  | str s => exact absurd hv (h s)
  | undefined | null | bool | num | arr | obj => rfl

/-! ## Integers among the numbers

Integers up to 2^53 are doubles, and between them the operators are the
integers' own, a result beyond rounded. Whatever its size, a sum of integers
is an integer again unless it overflows. -/

def Number.IsInt (x : Number) (n : ℤ) : Prop :=
  ∃ d, x = .fin d ∧ d.val = n

namespace Number

variable {x y : Number} {n m : ℤ} {q : ℚ}

theorem ofRat_of_finite (h : Binary.double.Finite q) :
    ofRat q = .fin ⟨q, h⟩ := by
  rw [ofRat, dif_pos h.abs_lt_overflow, Binary.Num.round_of_finite h]

theorem isInt_ofRat (h : |n| < 2 ^ 53) : (ofRat n).IsInt n :=
  ⟨_, ofRat_of_finite (Binary.Format.finite_intCast h), rfl⟩

theorem IsInt.eq (hx : x.IsInt n) (hx' : x.IsInt m) : n = m := by
  obtain ⟨d, rfl, hd⟩ := hx
  obtain ⟨d', he, hd'⟩ := hx'
  obtain rfl := Number.fin.inj he
  exact Int.cast_injective (hd.symm.trans hd')

theorem IsInt.neg (hx : x.IsInt n) : x.neg.IsInt (-n) := by
  obtain ⟨d, rfl, hd⟩ := hx
  exact ⟨d.neg, rfl, by rw [Binary.Num.neg_val, hd, Int.cast_neg]⟩

theorem IsInt.ge (hx : x.IsInt n) (hy : y.IsInt m) :
    x.ge y = decide (m ≤ n) := by
  obtain ⟨d, rfl, hd⟩ := hx
  obtain ⟨d', rfl, hd'⟩ := hy
  rw [Number.ge, hd, hd']
  simp

theorem IsInt.add (hx : x.IsInt n) (hy : y.IsInt m) :
    x.add y = ofRat ((n + m : ℤ) : ℚ) := by
  obtain ⟨d, rfl, hd⟩ := hx
  obtain ⟨d', rfl, hd'⟩ := hy
  rw [Number.add, hd, hd', Int.cast_add]

theorem IsInt.sub (hx : x.IsInt n) (hy : y.IsInt m) :
    x.sub y = ofRat ((n - m : ℤ) : ℚ) := by
  rw [Number.sub, hx.add hy.neg, sub_eq_add_neg]

/-- An integer that does not overflow is rounded to an integer, and not across
zero or one. -/
theorem exists_isInt_ofRat (h : |(n : ℚ)| < Binary.double.overflow) :
    ∃ k, (ofRat n).IsInt k ∧ (0 ≤ n → 0 ≤ k) ∧ (1 ≤ n → 1 ≤ k) := by
  obtain ⟨k, hk⟩ := Binary.double.nearest_intCast n
  refine ⟨k, ⟨.round n h, by rw [ofRat, dif_pos h], hk⟩, fun hn => ?_,
    fun hn => ?_⟩
  · have hle := Binary.double.nearest_nonneg (q := n) (by exact_mod_cast hn)
    rw [hk] at hle
    exact_mod_cast hle
  · have hlt := Binary.double.nearest_pos (q := n) (by exact_mod_cast hn)
    rw [hk] at hlt
    have hpos : 0 < k := by exact_mod_cast hlt
    omega

end Number

/-- An integer as it is read from a literal. -/
def Value.ofInt (n : ℤ) : Value := .num (.ofRat n)

theorem Value.ge_ofInt {a b : ℤ} (ha : |a| < 2 ^ 53) (hb : |b| < 2 ^ 53) :
    (Value.ofInt a).ge (.ofInt b) = decide (b ≤ a) :=
  (Number.isInt_ofRat ha).ge (Number.isInt_ofRat hb)

theorem Value.sub_ofInt {a b : ℤ} (ha : |a| < 2 ^ 53) (hb : |b| < 2 ^ 53) :
    (Value.ofInt a).sub (.ofInt b) = .ofInt (a - b) :=
  congrArg Value.num
    ((Number.isInt_ofRat ha).sub (Number.isInt_ofRat hb))

example : ((Value.ofInt 1).add (.str "5")).toStr = "15" := by decide +kernel

example : Number.ofStr " 0x1F " = .ofRat 31 := by decide +kernel

end Js
