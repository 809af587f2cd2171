-- The operator `%` on strings with integers, as CPython computes it: what it
-- reads after a percent sign, and what it writes for a value.
import Mathlib.Data.List.TakeWhile
import Mathlib.Tactic

namespace percent_format

/-- A string by its code points. -/
abbrev Str := List Nat

/-! ## What is read -/

def FLAGS : Str := ['-', '+', ' ', '#', '0'].map Char.toNat

def isFlag (c : Nat) : Bool := FLAGS.contains c

def isAsciiDigit (c : Nat) : Bool := decide ('0'.toNat ≤ c ∧ c ≤ '9'.toNat)

def number (digits : Str) : Nat := digits.foldl (fun n c => 10 * n + (c - '0'.toNat)) 0

/-- What stands between the percent sign and the next text. A precision of 0 is
the same as none. -/
structure Format where
  left : Bool
  plus : Bool
  blank : Bool
  alt : Bool
  zero : Bool
  width : Nat
  precision : Nat
  conversion : Nat
deriving DecidableEq, Repr

def PY_SSIZE_T_MAX : Nat := 2 ^ 63 - 1

def INT_MAX : Nat := 2 ^ 31 - 1

/-- The digits behind a point, and what follows them. -/
def readPrecision : Str → Str × Str
  | [] => ([], [])
  | c :: rest =>
    if c = '.'.toNat then (rest.takeWhile isAsciiDigit, rest.dropWhile isAsciiDigit)
    else ([], c :: rest)

/-- One length modifier is ignored. -/
def skipLength : Str → Str
  | [] => []
  | c :: rest => if c ∈ ['h', 'l', 'L'].map Char.toNat then rest else c :: rest

/-- A format and what follows it. Nothing reads a `*` or a key in parentheses,
which want another argument. -/
def readFormat (input : Str) : Option (Format × Str) :=
  let flags := input.takeWhile isFlag
  let rest := input.dropWhile isFlag
  let width := number (rest.takeWhile isAsciiDigit)
  let (digits, rest) := readPrecision (rest.dropWhile isAsciiDigit)
  let precision := number digits
  if width > PY_SSIZE_T_MAX ∨ precision > INT_MAX then none
  else
    match skipLength rest with
    | [] => none
    | conversion :: after =>
      some ({ left := flags.contains '-'.toNat
              plus := flags.contains '+'.toNat
              blank := flags.contains ' '.toNat
              alt := flags.contains '#'.toNat
              zero := flags.contains '0'.toNat
              width, precision, conversion }, after)

/-! ## What is written -/

def INTEGERS : Str := ['d', 'i', 'u', 'o', 'x', 'X'].map Char.toNat

def baseOf (conversion : Nat) : Nat :=
  if conversion = 'o'.toNat then 8
  else if conversion = 'x'.toNat ∨ conversion = 'X'.toNat then 16
  else 10

/-- The digits of a number in the base of the conversion. -/
def digitsOf (conversion : Nat) (n : Nat) : Str :=
  let digits := Nat.toDigits (baseOf conversion) n
  (if conversion = 'X'.toNat then digits.map Char.toUpper else digits).map Char.toNat

def signOf (format : Format) (value : Int) : Str :=
  if value < 0 then ['-'.toNat]
  else if format.plus then ['+'.toNat]
  else if format.blank then [' '.toNat]
  else []

/-- The mark of the base in the alternate form. -/
def markOf (format : Format) : Str :=
  if format.alt ∧ baseOf format.conversion ≠ 10 then ['0'.toNat, format.conversion] else []

/-- The padding goes to the right, between the mark and the digits, or to the left. -/
def formatLong (format : Format) (value : Int) : Str :=
  let digits := digitsOf format.conversion value.natAbs
  let digits := List.replicate (format.precision - digits.length) '0'.toNat ++ digits
  let start := signOf format value ++ markOf format
  let fill := format.width - (start.length + digits.length)
  if format.left then start ++ digits ++ List.replicate fill ' '.toNat
  else if format.zero then start ++ List.replicate fill '0'.toNat ++ digits
  else List.replicate fill ' '.toNat ++ start ++ digits

def formatChar (format : Format) (value : Int) : Str :=
  let fill := List.replicate (format.width - 1) ' '.toNat
  if format.left then value.toNat :: fill else fill ++ [value.toNat]

def MAX_UNICODE : Int := 0x10FFFF

/-- The text for a value, or none where Python raises. Memory has no end here. -/
def formatArg (format : Format) (value : Int) : Option Str :=
  if format.conversion ∈ INTEGERS then
    if format.precision > INT_MAX - 3 then none else some (formatLong format value)
  else if format.conversion = 'c'.toNat then
    if value < 0 ∨ value > MAX_UNICODE then none else some (formatChar format value)
  else none

/-! ## The operator -/

theorem length_skipLength_le (input : Str) : (skipLength input).length ≤ input.length := by
  unfold skipLength
  split
  · exact Nat.le_refl _
  · split
    · exact Nat.le_succ _
    · exact Nat.le_refl _

theorem length_readPrecision_le (input : Str) :
    (readPrecision input).2.length ≤ input.length := by
  unfold readPrecision
  split
  · exact Nat.le_refl _
  · split
    · exact (List.dropWhile_suffix _).length_le.trans (Nat.le_succ _)
    · exact Nat.le_refl _

theorem readFormat_shrinks {input after : Str} {format : Format}
    (h : readFormat input = some (format, after)) : after.length < input.length := by
  unfold readFormat at h
  dsimp only at h
  split at h
  · cases h
  split at h
  · cases h
  · rename_i hskip
    cases h
    have hskipped := length_skipLength_le
      (readPrecision ((input.dropWhile isFlag).dropWhile isAsciiDigit)).2
    rw [hskip, List.length_cons] at hskipped
    have hprecision := length_readPrecision_le ((input.dropWhile isFlag).dropWhile isAsciiDigit)
    have hwidth := (List.dropWhile_suffix (l := input.dropWhile isFlag) isAsciiDigit).length_le
    have hflags := (List.dropWhile_suffix (l := input) isFlag).length_le
    omega

/-- `format % args`, or none where it raises. -/
def percentFormat (format : Str) (args : List Int) : Option Str :=
  match format with
  | [] => if args = [] then some [] else none
  | c :: rest =>
    if c ≠ '%'.toNat then (percentFormat rest args).map (c :: ·)
    else if rest.head? = some '%'.toNat then (percentFormat rest.tail args).map (c :: ·)
    else
      match _h : readFormat rest with
      | none => none
      | some (spec, after) =>
        match args with
        | [] => none
        | value :: args =>
          match formatArg spec value with
          | none => none
          | some text => (percentFormat after args).map (text ++ ·)
termination_by format.length
decreasing_by
  · simp
  · simp only [List.length_tail, List.length_cons]
    omega
  · have hshrinks := readFormat_shrinks _h
    simp only [List.length_cons]
    omega

end percent_format
