-- The trace formats: what the extractor accepts is a row of literals, escapes and
-- conversions, and what Python reads of a conversion are its parts.
import Stm32Vibe.Lib.PercentFormat

namespace stm32_vibe.trace_format

open percent_format

/-! ## The extractor -/

/-- The zeros of the decimal digits of Unicode 14, each before its other nine. -/
def DIGIT_ZEROS : List Nat :=
  [0x30, 0x660, 0x6F0, 0x7C0, 0x966, 0x9E6, 0xA66, 0xAE6, 0xB66, 0xBE6, 0xC66, 0xCE6, 0xD66,
    0xDE6, 0xE50, 0xED0, 0xF20, 0x1040, 0x1090, 0x17E0, 0x1810, 0x1946, 0x19D0, 0x1A80, 0x1A90,
    0x1B50, 0x1BB0, 0x1C40, 0x1C50, 0xA620, 0xA8D0, 0xA900, 0xA9D0, 0xA9F0, 0xAA50, 0xABF0,
    0xFF10, 0x104A0, 0x10D30, 0x11066, 0x110F0, 0x11136, 0x111D0, 0x112F0, 0x11450, 0x114D0,
    0x11650, 0x116C0, 0x11730, 0x118E0, 0x11950, 0x11C50, 0x11D50, 0x11DA0, 0x16A60, 0x16AC0,
    0x16B50, 0x1D7CE, 0x1D7D8, 0x1D7E2, 0x1D7EC, 0x1D7F6, 0x1E140, 0x1E2F0, 0x1E950, 0x1FBF0]

/-- `\d` of a regular expression. -/
def isDigit (c : Nat) : Bool := DIGIT_ZEROS.any (fun start => start ≤ c ∧ c < start + 10)

/-- The conversions that take a value. -/
def LETTERS : Str := ['d', 'i', 'u', 'o', 'x', 'X', 'c'].map Char.toNat

def CONVERSIONS : Str := LETTERS ++ ['%'.toNat]

/-- `(?:\.\d+)?`. -/
def skipPrecision : Str → Str
  | [] => []
  | c :: rest =>
    if c = '.'.toNat ∧ rest.takeWhile isDigit ≠ [] then rest.dropWhile isDigit else c :: rest

/-- `(?:l)?`. -/
def skipLong : Str → Str
  | [] => []
  | c :: rest => if c = 'l'.toNat then rest else c :: rest

/-- `FORMAT_RE` behind its percent sign: the group and what follows the match. Where
the longest choice of every part fails, so does every other. -/
def matchFormat (input : Str) : Option (Nat × Str) :=
  match skipLong (skipPrecision ((input.dropWhile isFlag).dropWhile isDigit)) with
  | [] => none
  | conversion :: after => if conversion ∈ CONVERSIONS then some (conversion, after) else none

inductive ArgType where
  | i32
  | u32
  | char
deriving DecidableEq, Repr

def argType (conversion : Nat) : Option ArgType :=
  if conversion ∈ ['d', 'i'].map Char.toNat then some .i32
  else if conversion ∈ ['u', 'o', 'x', 'X'].map Char.toNat then some .u32
  else if conversion = 'c'.toNat then some .char
  else none

/-- The `ValueError`s of `parse_format`. -/
inductive FormatError where
  | unsupported (near : Str)
  | tooMany
deriving DecidableEq, Repr

/-- The text of an error; `repr` quotes a string. -/
def FormatError.text (location : String) (repr : Str → String) : FormatError → String
  | .unsupported near =>
    location ++ ": unsupported format near " ++ repr near ++
      "; supported conversions are %d, %i, %u, %o, %x, %X, %c and %%"
  | .tooMany => location ++ ": at most four trace arguments are supported"

theorem length_skipPrecision_le (input : Str) : (skipPrecision input).length ≤ input.length := by
  unfold skipPrecision
  split
  · exact Nat.le_refl _
  · split
    · exact (List.dropWhile_suffix _).length_le.trans (Nat.le_succ _)
    · exact Nat.le_refl _

theorem length_skipLong_le (input : Str) : (skipLong input).length ≤ input.length := by
  unfold skipLong
  split
  · exact Nat.le_refl _
  · split
    · exact Nat.le_succ _
    · exact Nat.le_refl _

theorem matchFormat_shrinks {input after : Str} {conversion : Nat}
    (h : matchFormat input = some (conversion, after)) : after.length < input.length := by
  unfold matchFormat at h
  split at h
  · cases h
  · rename_i hskip
    split at h
    · cases h
      have hlong := length_skipLong_le
        (skipPrecision ((input.dropWhile isFlag).dropWhile isDigit))
      rw [hskip, List.length_cons] at hlong
      have hprecision := length_skipPrecision_le ((input.dropWhile isFlag).dropWhile isDigit)
      have hwidth := (List.dropWhile_suffix (l := input.dropWhile isFlag) isDigit).length_le
      have hflags := (List.dropWhile_suffix (l := input) isFlag).length_le
      omega
    · cases h

/-- The loop of `parse_format` from an index on. -/
def parseLoop (format_string : Str) : Except FormatError (List ArgType) :=
  match format_string with
  | [] => .ok []
  | c :: rest =>
    if c ≠ '%'.toNat then parseLoop rest
    else
      match _h : matchFormat rest with
      | none => .error (.unsupported ((c :: rest).take 12))
      | some (conversion, after) =>
        (parseLoop after).map (fun arg_types => (argType conversion).toList ++ arg_types)
termination_by format_string.length
decreasing_by
  · simp
  · have hshrinks := matchFormat_shrinks _h
    simp only [List.length_cons]
    omega

def parse_format (format_string : Str) : Except FormatError (List ArgType) :=
  match parseLoop format_string with
  | .error error => .error error
  | .ok arg_types => if arg_types.length > 4 then .error .tooMany else .ok arg_types

/-! ## The tokens of a format -/

/-- What stands behind a percent sign that the extractor accepts. -/
structure Spec where
  flags : Str
  width : Str
  precision : Option Str
  long : Bool
  conversion : Nat
  flags_ok : ∀ c ∈ flags, isFlag c = true
  width_ok : ∀ c ∈ width, isDigit c = true
  width_start : ∀ c ∈ width.head?, isFlag c = false
  precision_ok : ∀ digits ∈ precision, digits ≠ [] ∧ ∀ c ∈ digits, isDigit c = true
  conversion_ok : conversion ∈ CONVERSIONS

def Spec.point (spec : Spec) : Str :=
  match spec.precision with
  | none => []
  | some digits => '.'.toNat :: digits

def Spec.modifier (spec : Spec) : Str := if spec.long then ['l'.toNat] else []

def Spec.front (spec : Spec) : Str :=
  spec.flags ++ (spec.width ++ (spec.point ++ spec.modifier))

def Spec.body (spec : Spec) : Str := spec.front ++ [spec.conversion]

inductive Token where
  | literal (c : Nat) (plain : c ≠ '%'.toNat)
  | percent (spec : Spec)

def Token.text : Token → Str
  | .literal c _ => [c]
  | .percent spec => '%'.toNat :: spec.body

def Token.arg_type : Token → Option ArgType
  | .literal _ _ => none
  | .percent spec => argType spec.conversion

def text (tokens : List Token) : Str := tokens.flatMap Token.text

def types (tokens : List Token) : List ArgType := tokens.filterMap Token.arg_type

/-! ## Characters -/

def isLetter (c : Nat) : Bool := LETTERS.contains c

theorem takeWhile_stop {p : Nat → Bool} {run rest : Str} (hrun : ∀ c ∈ run, p c = true)
    (hrest : ∀ c ∈ rest.head?, p c = false) : (run ++ rest).takeWhile p = run := by
  rw [List.takeWhile_append_of_pos hrun]
  cases rest with
  | nil => simp
  | cons c rest => simp [hrest c rfl]

theorem dropWhile_stop {p : Nat → Bool} {run rest : Str} (hrun : ∀ c ∈ run, p c = true)
    (hrest : ∀ c ∈ rest.head?, p c = false) : (run ++ rest).dropWhile p = rest := by
  rw [List.dropWhile_append_of_pos hrun]
  cases rest with
  | nil => rfl
  | cons c rest => simp [hrest c rfl]

/-- A conversion is no other part of a format. -/
theorem conversion_bits : ∀ c ∈ CONVERSIONS,
    isFlag c = false ∧ isDigit c = false ∧ c ≠ '.'.toNat ∧ c ≠ 'l'.toNat := by
  decide

/-- A decimal digit is one of the ten of ASCII or stands far behind them. -/
theorem digit_cases {c : Nat} (h : isDigit c = true) : isAsciiDigit c = true ∨ 0x660 ≤ c := by
  have hstarts : ∀ start ∈ DIGIT_ZEROS, start = 0x30 ∨ 0x660 ≤ start := by decide
  obtain ⟨start, hmem, hrange⟩ := List.any_eq_true.mp h
  have hrange := of_decide_eq_true hrange
  rcases hstarts start hmem with rfl | hfar
  · left
    exact decide_eq_true (by simp only [Char.reduceToNat]; omega)
  · right
    omega

theorem digit_bits {c : Nat} (h : isDigit c = true) :
    isLetter c = false ∧ c ≠ '.'.toNat ∧ c ≠ 'l'.toNat ∧ c ≠ '%'.toNat := by
  rcases digit_cases h with hascii | hfar
  · have hrange := of_decide_eq_true hascii
    simp only [Char.reduceToNat] at hrange ⊢
    have hletter : c ∉ LETTERS := by
      simp only [LETTERS, List.map, List.mem_cons, Char.reduceToNat]
      simp
      omega
    exact ⟨by simpa [isLetter] using hletter, by omega, by omega, by omega⟩
  · simp only [Char.reduceToNat]
    have hletter : c ∉ LETTERS := by
      simp only [LETTERS, List.map, List.mem_cons, Char.reduceToNat]
      simp
      omega
    exact ⟨by simpa [isLetter] using hletter, by omega, by omega, by omega⟩

theorem flag_bits {c : Nat} (h : isFlag c = true) :
    isLetter c = false ∧ c ≠ '.'.toNat ∧ c ≠ 'l'.toNat ∧ c ≠ '%'.toNat := by
  have hflags : ∀ c ∈ FLAGS,
      isLetter c = false ∧ c ≠ '.'.toNat ∧ c ≠ 'l'.toNat ∧ c ≠ '%'.toNat := by decide
  exact hflags c (by simpa [isFlag] using h)

/-! ## The parts of a format -/

theorem Spec.body_append (spec : Spec) (more : Str) :
    spec.body ++ more = spec.flags ++ (spec.width ++ (spec.point ++
      (spec.modifier ++ spec.conversion :: more))) := by
  simp [Spec.body, Spec.front]

section
variable (spec : Spec) {p : Nat → Bool} (more : Str)

theorem Spec.head_modifier (hl : p 'l'.toNat = false) (hconversion : p spec.conversion = false) :
    ∀ c ∈ (spec.modifier ++ spec.conversion :: more).head?, p c = false := by
  cases hlong : spec.long <;> simp [Spec.modifier, hlong] <;> assumption

theorem Spec.head_point (hpoint : p '.'.toNat = false) (hl : p 'l'.toNat = false)
    (hconversion : p spec.conversion = false) :
    ∀ c ∈ (spec.point ++ (spec.modifier ++ spec.conversion :: more)).head?, p c = false := by
  cases hprecision : spec.precision with
  | none =>
    rw [Spec.point, hprecision]
    exact spec.head_modifier more hl hconversion
  | some digits => simpa [Spec.point, hprecision] using hpoint

theorem Spec.head_width :
    ∀ c ∈ (spec.width ++ (spec.point ++ (spec.modifier ++ spec.conversion :: more))).head?,
      isFlag c = false := by
  have hconversion := (conversion_bits _ spec.conversion_ok).1
  cases hwidth : spec.width with
  | nil => exact spec.head_point more (by decide) (by decide) hconversion
  | cons first width =>
    intro c hc
    cases hc
    exact spec.width_start _ (by rw [hwidth]; rfl)

theorem Spec.dropFlags :
    (spec.body ++ more).dropWhile isFlag =
      spec.width ++ (spec.point ++ (spec.modifier ++ spec.conversion :: more)) := by
  rw [spec.body_append, dropWhile_stop spec.flags_ok (spec.head_width more)]

theorem Spec.takeFlags : (spec.body ++ more).takeWhile isFlag = spec.flags := by
  rw [spec.body_append, takeWhile_stop spec.flags_ok (spec.head_width more)]

/-- The parts are what the expression matches. -/
theorem matchFormat_body : matchFormat (spec.body ++ more) = some (spec.conversion, more) := by
  obtain ⟨-, hdigit, hpoint, hl⟩ := conversion_bits _ spec.conversion_ok
  simp only [Char.reduceToNat] at hpoint hl
  have hwidth : (spec.width ++ (spec.point ++ (spec.modifier ++ spec.conversion :: more))).dropWhile
      isDigit = spec.point ++ (spec.modifier ++ spec.conversion :: more) :=
    dropWhile_stop spec.width_ok (spec.head_point more (by decide) (by decide) hdigit)
  have hprecision : skipPrecision (spec.point ++ (spec.modifier ++ spec.conversion :: more)) =
      spec.modifier ++ spec.conversion :: more := by
    cases hprecision : spec.precision with
    | none =>
      cases hlong : spec.long with
      | false => simp [Spec.point, Spec.modifier, hprecision, hlong, skipPrecision, hpoint]
      | true => simp [Spec.point, Spec.modifier, hprecision, hlong, skipPrecision]
    | some digits =>
      obtain ⟨hne, hdigits⟩ := spec.precision_ok digits hprecision
      have hhead := spec.head_modifier more (p := isDigit) (by decide) hdigit
      rw [Spec.point, hprecision]
      show skipPrecision ('.'.toNat :: (digits ++ _)) = _
      rw [skipPrecision, takeWhile_stop hdigits hhead, dropWhile_stop hdigits hhead,
        if_pos ⟨rfl, hne⟩]
  have hlong : skipLong (spec.modifier ++ spec.conversion :: more) = spec.conversion :: more := by
    cases hlong : spec.long with
    | false => simp [Spec.modifier, hlong, skipLong, hl]
    | true => simp [Spec.modifier, hlong, skipLong]
  rw [matchFormat, spec.dropFlags, hwidth, hprecision, hlong]
  exact if_pos spec.conversion_ok

end

theorem skipPrecision_parts (input : Str) : ∃ precision : Option Str,
    (∀ digits ∈ precision, digits ≠ [] ∧ ∀ c ∈ digits, isDigit c = true) ∧
      input = (match precision with
        | none => []
        | some digits => '.'.toNat :: digits) ++ skipPrecision input := by
  match input with
  | [] => exact ⟨none, by simp, rfl⟩
  | c :: rest =>
    rw [skipPrecision]
    split
    · rename_i hpoint
      obtain ⟨rfl, hne⟩ := hpoint
      refine ⟨some (rest.takeWhile isDigit), ?_, ?_⟩
      · rintro _ ⟨⟩
        exact ⟨hne, fun c hc => List.mem_takeWhile_imp hc⟩
      · rw [List.cons_append, List.takeWhile_append_dropWhile]
    · exact ⟨none, by simp, rfl⟩

theorem skipLong_parts (input : Str) : ∃ long : Bool,
    input = (if long then ['l'.toNat] else []) ++ skipLong input := by
  match input with
  | [] => exact ⟨false, rfl⟩
  | c :: rest =>
    rw [skipLong]
    split
    · rename_i hl
      exact ⟨true, by rw [hl]; rfl⟩
    · exact ⟨false, rfl⟩

/-- What the expression matches has the parts. -/
theorem matchFormat_some {input after : Str} {conversion : Nat}
    (h : matchFormat input = some (conversion, after)) :
    ∃ spec : Spec, input = spec.body ++ after := by
  unfold matchFormat at h
  have hflags := List.takeWhile_append_dropWhile (p := isFlag) (l := input)
  have hwidth := List.takeWhile_append_dropWhile (p := isDigit) (l := input.dropWhile isFlag)
  obtain ⟨precision, precision_ok, hprecision⟩ :=
    skipPrecision_parts ((input.dropWhile isFlag).dropWhile isDigit)
  obtain ⟨long, hlong⟩ :=
    skipLong_parts (skipPrecision ((input.dropWhile isFlag).dropWhile isDigit))
  have hstart : ∀ c ∈ ((input.dropWhile isFlag).takeWhile isDigit).head?, isFlag c = false := by
    intro c hc
    have hnot := List.head?_dropWhile_not isFlag input
    cases hrest : input.dropWhile isFlag with
    | nil =>
      rw [hrest] at hc
      cases hc
    | cons first rest =>
      rw [hrest] at hc hnot
      rw [List.takeWhile_cons] at hc
      split at hc
      · cases hc
        exact hnot
      · cases hc
  split at h
  · cases h
  · rename_i hskip
    split at h
    · rename_i hmem
      cases h
      refine ⟨{ flags := input.takeWhile isFlag
                width := (input.dropWhile isFlag).takeWhile isDigit
                precision, long, conversion
                flags_ok := fun c hc => List.mem_takeWhile_imp hc
                width_ok := fun c hc => List.mem_takeWhile_imp hc
                width_start := hstart
                precision_ok
                conversion_ok := hmem }, ?_⟩
      rw [Spec.body_append]
      dsimp only [Spec.point, Spec.modifier]
      rw [← hskip, ← hlong, ← hprecision, hwidth, hflags]
    · cases h

/-! ## What the extractor accepts -/

theorem parseLoop_text (tokens : List Token) : parseLoop (text tokens) = .ok (types tokens) := by
  induction tokens with
  | nil => rw [text, List.flatMap_nil, parseLoop]; rfl
  | cons token tokens ih =>
    cases token with
    | literal c plain =>
      show parseLoop (c :: text tokens) = _
      rw [parseLoop, if_pos plain, ih]
      rfl
    | percent spec =>
      show parseLoop ('%'.toNat :: (spec.body ++ text tokens)) = _
      rw [parseLoop, if_neg (not_not.mpr rfl)]
      split
      · rename_i hnone
        rw [matchFormat_body] at hnone
        cases hnone
      · rename_i hsome
        rw [matchFormat_body] at hsome
        cases hsome
        rw [ih]
        cases htype : argType spec.conversion <;> simp [Except.map, types, Token.arg_type, htype]

theorem tokens_of_parseLoop {format_string : Str} {arg_types : List ArgType}
    (h : parseLoop format_string = .ok arg_types) : ∃ tokens, text tokens = format_string := by
  induction format_string using parseLoop.induct generalizing arg_types with
  | case1 => exact ⟨[], rfl⟩
  | case2 c rest hplain ih =>
    rw [parseLoop, if_pos hplain] at h
    obtain ⟨tokens, rfl⟩ := ih h
    exact ⟨.literal c hplain :: tokens, rfl⟩
  | case3 c rest hpercent hnone =>
    rw [parseLoop, if_neg hpercent] at h
    split at h
    · cases h
    · rename_i hsome
      rw [hsome] at hnone
      cases hnone
  | case4 c rest hpercent conversion after hmatch ih =>
    rw [parseLoop, if_neg hpercent] at h
    split at h
    · cases h
    · rename_i hsome
      rw [hsome] at hmatch
      cases hmatch
      cases hrest : parseLoop after with
      | error error =>
        rw [hrest] at h
        cases h
      | ok rest_types =>
        obtain ⟨tokens, rfl⟩ := ih hrest
        obtain ⟨spec, rfl⟩ := matchFormat_some hsome
        refine ⟨.percent spec :: tokens, ?_⟩
        rw [not_not.mp hpercent]
        rfl

/-! ## What Python reads -/

/-- The value of a decimal digit. -/
def digitValue (c : Nat) : Nat :=
  match DIGIT_ZEROS.find? (fun start => start ≤ c ∧ c < start + 10) with
  | none => 0
  | some start => c - start

def decimal (digits : Str) : Nat := digits.foldl (fun n c => 10 * n + digitValue c) 0

/-- What the parts mean. -/
def Spec.format (spec : Spec) : Format where
  left := spec.flags.contains '-'.toNat
  plus := spec.flags.contains '+'.toNat
  blank := spec.flags.contains ' '.toNat
  alt := spec.flags.contains '#'.toNat
  zero := spec.flags.contains '0'.toNat
  width := decimal spec.width
  precision := decimal (spec.precision.getD [])
  conversion := spec.conversion

/-- All digits are those of ASCII. -/
def Spec.Ascii (spec : Spec) : Prop :=
  (∀ c ∈ spec.width, isAsciiDigit c = true) ∧
    ∀ digits ∈ spec.precision, ∀ c ∈ digits, isAsciiDigit c = true

theorem number_eq {digits : Str} (h : ∀ c ∈ digits, isAsciiDigit c = true) :
    number digits = decimal digits := by
  apply List.foldl_ext
  intro n c hc
  have hrange := of_decide_eq_true (h c hc)
  have hfirst : DIGIT_ZEROS.find? (fun start => start ≤ c ∧ c < start + 10) = some 0x30 := by
    simp only [Char.reduceToNat] at hrange
    rw [DIGIT_ZEROS, List.find?_cons_of_pos]
    simp only [decide_eq_true_eq]
    omega
  rw [digitValue, hfirst]
  rfl

theorem ascii_of_digit {c : Nat} (h : isDigit c = false) : isAsciiDigit c = false := by
  rw [Bool.eq_false_iff] at h ⊢
  intro hascii
  apply h
  have hrange := of_decide_eq_true hascii
  simp only [Char.reduceToNat] at hrange
  refine List.any_eq_true.mpr ⟨0x30, by decide, ?_⟩
  simp only [decide_eq_true_eq]
  omega

/-- No length modifier and no conversion of the operator stands so far behind ASCII. -/
theorem far_bits {c : Nat} (h : 0x660 ≤ c) : c ≠ '.'.toNat ∧ c ∉ ['h', 'l', 'L'].map Char.toNat ∧
    c ∉ INTEGERS ∧ c ≠ 'c'.toNat := by
  have hmodifiers : ∀ other ∈ ['h', 'l', 'L'].map Char.toNat, other < 0x660 := by decide
  have hintegers : ∀ other ∈ INTEGERS, other < 0x660 := by decide
  simp only [Char.reduceToNat]
  refine ⟨by omega, ?_, ?_, by omega⟩
  · intro hmem
    have hlt := hmodifiers c hmem
    omega
  · intro hmem
    have hlt := hintegers c hmem
    omega

theorem readFormat_of_parts {input digits rest after : Str} {conversion : Nat}
    (hprecision : readPrecision ((input.dropWhile isFlag).dropWhile isAsciiDigit) = (digits, rest))
    (hskip : skipLength rest = conversion :: after) :
    readFormat input =
      (if number ((input.dropWhile isFlag).takeWhile isAsciiDigit) > PY_SSIZE_T_MAX ∨
          number digits > INT_MAX then none
        else
          some ({ left := (input.takeWhile isFlag).contains '-'.toNat
                  plus := (input.takeWhile isFlag).contains '+'.toNat
                  blank := (input.takeWhile isFlag).contains ' '.toNat
                  alt := (input.takeWhile isFlag).contains '#'.toNat
                  zero := (input.takeWhile isFlag).contains '0'.toNat
                  width := number ((input.dropWhile isFlag).takeWhile isAsciiDigit)
                  precision := number digits
                  conversion }, after)) := by
  unfold readFormat
  dsimp only
  rw [hprecision]
  dsimp only
  rw [hskip]

/-- A digit that is not of ASCII ends what Python reads of a number. -/
theorem split_ascii {digits : Str} (hdigits : ∀ c ∈ digits, isDigit c = true)
    (h : ¬ ∀ c ∈ digits, isAsciiDigit c = true) :
    ∃ odd rest, 0x660 ≤ odd ∧
      ∀ more, (digits ++ more).dropWhile isAsciiDigit = odd :: (rest ++ more) := by
  induction digits with
  | nil => exact absurd (fun c hc => by cases hc) h
  | cons c digits ih =>
    cases hc : isAsciiDigit c with
    | true =>
      have hrest : ¬ ∀ c ∈ digits, isAsciiDigit c = true := by
        intro hall
        exact h (List.forall_mem_cons.mpr ⟨hc, hall⟩)
      obtain ⟨odd, rest, hfar, hdrop⟩ :=
        ih (fun c hc => hdigits c (List.mem_cons_of_mem _ hc)) hrest
      refine ⟨odd, rest, hfar, fun more => ?_⟩
      rw [List.cons_append, List.dropWhile_cons_of_pos hc, hdrop]
    | false =>
      have hfar : 0x660 ≤ c := by
        rcases digit_cases (hdigits c List.mem_cons_self) with hascii | hfar
        · rw [hascii] at hc
          cases hc
        · exact hfar
      refine ⟨c, digits, hfar, fun more => ?_⟩
      rw [List.cons_append, List.dropWhile_cons_of_neg (by simp [hc])]

section
variable (spec : Spec) (more : Str)

theorem Spec.skipLength_modifier :
    skipLength (spec.modifier ++ spec.conversion :: more) = spec.conversion :: more := by
  have hnone : ∀ c ∈ CONVERSIONS, c ∉ ['h', 'l', 'L'].map Char.toNat := by decide
  rw [Spec.modifier]
  cases hlong : spec.long with
  | false =>
    show skipLength (spec.conversion :: more) = _
    rw [skipLength, if_neg (hnone _ spec.conversion_ok)]
  | true =>
    show skipLength ('l'.toNat :: spec.conversion :: more) = _
    rw [skipLength, if_pos (by decide)]

theorem Spec.head_ascii :
    ∀ c ∈ (spec.modifier ++ spec.conversion :: more).head?, isAsciiDigit c = false :=
  spec.head_modifier more (by decide)
    (ascii_of_digit (conversion_bits _ spec.conversion_ok).2.1)

theorem Spec.readPrecision_modifier :
    readPrecision (spec.modifier ++ spec.conversion :: more) =
      ([], spec.modifier ++ spec.conversion :: more) := by
  have hpoint := (conversion_bits _ spec.conversion_ok).2.2.1
  rw [Spec.modifier]
  cases hlong : spec.long with
  | false =>
    show readPrecision (spec.conversion :: more) = _
    rw [readPrecision, if_neg hpoint]
    rfl
  | true =>
    show readPrecision ('l'.toNat :: spec.conversion :: more) = _
    rw [readPrecision, if_neg (by decide)]
    rfl

/-- What Python reads where all digits are those of ASCII. -/
theorem Spec.readFormat_ascii {spec : Spec} (h : spec.Ascii) :
    readFormat (spec.body ++ more) =
      if spec.format.width > PY_SSIZE_T_MAX ∨ spec.format.precision > INT_MAX then none
      else some (spec.format, more) := by
  have hhead := spec.head_point more (p := isAsciiDigit) (by decide) (by decide)
    (ascii_of_digit (conversion_bits _ spec.conversion_ok).2.1)
  have hprecision : readPrecision
      (((spec.body ++ more).dropWhile isFlag).dropWhile isAsciiDigit) =
        (spec.precision.getD [], spec.modifier ++ spec.conversion :: more) := by
    rw [spec.dropFlags, dropWhile_stop h.1 hhead, Spec.point]
    cases hprecision : spec.precision with
    | none =>
      rw [List.nil_append, spec.readPrecision_modifier]
      rfl
    | some digits =>
      have hdigits := h.2 digits hprecision
      show readPrecision ('.'.toNat :: (digits ++ _)) = _
      rw [readPrecision, if_pos rfl, takeWhile_stop hdigits (spec.head_ascii more),
        dropWhile_stop hdigits (spec.head_ascii more)]
      rfl
  have hdigits : ∀ c ∈ spec.precision.getD [], isAsciiDigit c = true := by
    cases hprecision : spec.precision with
    | none => simp
    | some digits => exact h.2 digits hprecision
  rw [readFormat_of_parts hprecision (spec.skipLength_modifier more), spec.takeFlags,
    spec.dropFlags, takeWhile_stop h.1 hhead, number_eq h.1, number_eq hdigits]
  rfl

/-- Elsewhere it takes a digit for the conversion, and there is none of that name. -/
theorem Spec.readFormat_odd {spec : Spec} {format : Format} {after : Str} (h : ¬ spec.Ascii)
    (hread : readFormat (spec.body ++ more) = some (format, after)) :
    format.conversion ∉ INTEGERS ∧ format.conversion ≠ 'c'.toNat := by
  have hfound : ∃ odd digits rest, 0x660 ≤ odd ∧ readPrecision
      (((spec.body ++ more).dropWhile isFlag).dropWhile isAsciiDigit) = (digits, odd :: rest) := by
    rw [spec.dropFlags]
    by_cases hwidth : ∀ c ∈ spec.width, isAsciiDigit c = true
    · have hhead := spec.head_point more (p := isAsciiDigit) (by decide) (by decide)
        (ascii_of_digit (conversion_bits _ spec.conversion_ok).2.1)
      rw [dropWhile_stop hwidth hhead, Spec.point]
      cases hprecision : spec.precision with
      | none => exact absurd ⟨hwidth, by simp [hprecision]⟩ h
      | some digits =>
        have hodd : ¬ ∀ c ∈ digits, isAsciiDigit c = true := by
          intro hall
          exact h ⟨hwidth, by simpa [hprecision] using hall⟩
        obtain ⟨odd, rest, hfar, hdrop⟩ :=
          split_ascii (spec.precision_ok digits hprecision).2 hodd
        refine ⟨odd, (digits ++ (spec.modifier ++ spec.conversion :: more)).takeWhile isAsciiDigit,
          rest ++ (spec.modifier ++ spec.conversion :: more), hfar, ?_⟩
        show readPrecision ('.'.toNat :: (digits ++ _)) = _
        rw [readPrecision, if_pos rfl, hdrop]
    · obtain ⟨odd, rest, hfar, hdrop⟩ := split_ascii spec.width_ok hwidth
      refine ⟨odd, [], rest ++ (spec.point ++ (spec.modifier ++ spec.conversion :: more)), hfar, ?_⟩
      rw [hdrop, readPrecision, if_neg (far_bits hfar).1]
  obtain ⟨odd, digits, rest, hfar, hprecision⟩ := hfound
  obtain ⟨-, hmodifier, hinteger, hchar⟩ := far_bits hfar
  have hskip : skipLength (odd :: rest) = odd :: rest := if_neg hmodifier
  rw [readFormat_of_parts hprecision hskip] at hread
  split at hread
  · cases hread
  · cases hread
    exact ⟨hinteger, hchar⟩

end

end stm32_vibe.trace_format
