-- The records that the decoder prints. It has a scanner of its own for the formats
-- that the extractor accepts, and hands the result to Python; the theorem says for
-- which formats and values the record is printed as it is to be.
import Stm32Vibe.TraceFormat

namespace stm32_vibe.trace_format

open percent_format

/-! ## The decoder -/

/-- From an index on. A percent sign that no letter follows ends the loop. -/
def normalize_format (format_string : Str) : Str :=
  match format_string with
  | [] => []
  | c :: rest =>
    if c ≠ '%'.toNat then c :: normalize_format rest
    else if rest.head? = some '%'.toNat then
      '%'.toNat :: '%'.toNat :: normalize_format rest.tail
    else
      match _h : rest.dropWhile (fun c => !isLetter c) with
      | [] => c :: rest
      | letter :: after =>
        (c :: (rest.takeWhile (fun c => !isLetter c) ++ [letter])).filter (· ≠ 'l'.toNat) ++
          normalize_format after
termination_by format_string.length
decreasing_by
  · simp
  · simp only [List.length_tail, List.length_cons]
    omega
  · have hle := (List.dropWhile_suffix (l := rest) (fun c => !isLetter c)).length_le
    rw [_h, List.length_cons] at hle
    simp only [List.length_cons]
    omega

structure Event where
  format : Str
  arg_types : List ArgType

/-- The value of an argument: an `i32` has a sign. -/
def signed (arg_type : ArgType) (value : UInt32) : Int :=
  if arg_type = .i32 ∧ value &&& 0x80000000 ≠ 0 then value.toNat - 2 ^ 32 else value.toNat

/-- The text, or none where Python raises. -/
def format_record (event : Event) (raw_args : List UInt32) : Option Str :=
  if event.arg_types.length ≠ raw_args.length then none
  else
    let values := List.zipWith signed event.arg_types raw_args
    if values = [] then some event.format
    else percentFormat (normalize_format event.format) values

/-! ## What the decoder hands on -/

/-- Up to the next letter every `l` is lost. -/
def dropRun : Str → Str
  | [] => []
  | c :: rest =>
    if isLetter c then c :: normalize_format rest
    else if c = 'l'.toNat then dropRun rest
    else c :: dropRun rest

theorem dropRun_eq {rest after : Str} {letter : Nat}
    (h : rest.dropWhile (fun c => !isLetter c) = letter :: after) :
    (rest.takeWhile (fun c => !isLetter c) ++ [letter]).filter (· ≠ 'l'.toNat) ++
      normalize_format after = dropRun rest := by
  induction rest with
  | nil => cases h
  | cons c rest ih =>
    cases hletter : isLetter c with
    | true =>
      rw [List.dropWhile_cons_of_neg (by simp [hletter])] at h
      cases h
      have hl : letter ≠ 'l'.toNat := by
        rintro rfl
        exact absurd hletter (by decide)
      rw [List.takeWhile_cons_of_neg (by simp [hletter]), dropRun, if_pos hletter,
        List.nil_append, List.filter_cons_of_pos (by simpa using hl)]
      rfl
    | false =>
      rw [List.dropWhile_cons_of_pos (by simp [hletter])] at h
      rw [List.takeWhile_cons_of_pos (by simp [hletter]), dropRun, if_neg (by simp [hletter]),
        ← ih h, List.cons_append, List.filter_cons]
      split
      · rename_i hne
        rw [if_neg (by simpa using hne)]
        rfl
      · rename_i heq
        rw [if_pos (by simpa using heq)]

/-- Behind a percent sign that no other follows. -/
theorem normalize_percent {rest : Str} (h : rest.head? ≠ some '%'.toNat) :
    normalize_format ('%'.toNat :: rest) =
      '%'.toNat :: (if rest.any isLetter then dropRun rest else rest) := by
  rw [normalize_format, if_neg (not_not.mpr rfl), if_neg h]
  split
  · rename_i hnone
    rw [if_neg]
    simp only [List.any_eq_true, not_exists, not_and]
    intro c hc
    simpa using List.dropWhile_eq_nil_iff.mp hnone c hc
  · rename_i letter after hsome
    have hletter : isLetter letter = true := by
      have hnot := List.head?_dropWhile_not (fun c => !isLetter c) rest
      rw [hsome] at hnot
      simpa using hnot
    have hmem : letter ∈ rest := by
      apply (List.dropWhile_suffix (fun c => !isLetter c)).subset
      rw [hsome]
      exact List.mem_cons_self
    rw [if_pos (List.any_eq_true.mpr ⟨letter, hmem, hletter⟩), ← dropRun_eq hsome]
    rfl

theorem dropRun_append {run : Str} (h : ∀ c ∈ run, isLetter c = false) (rest : Str) :
    dropRun (run ++ rest) = run.filter (· ≠ 'l'.toNat) ++ dropRun rest := by
  induction run with
  | nil => rfl
  | cons c run ih =>
    have hrun := ih fun c hc => h c (List.mem_cons_of_mem _ hc)
    rw [List.cons_append, dropRun, if_neg (by simp [h c List.mem_cons_self]), hrun,
      List.filter_cons]
    split
    · rename_i heq
      rw [if_neg (by simpa using heq)]
    · rename_i hne
      rw [if_pos (by simpa using hne)]
      rfl

/-- The parts without the modifier. -/
def Spec.strip (spec : Spec) : Spec := { spec with long := false }

section
variable (spec : Spec)

theorem Spec.point_bits : ∀ c ∈ spec.point, isDigit c = true ∨ c = '.'.toNat := by
  intro c hc
  cases hprecision : spec.precision with
  | none =>
    rw [Spec.point, hprecision] at hc
    cases hc
  | some digits =>
    rw [Spec.point, hprecision] at hc
    rcases List.mem_cons.mp hc with rfl | hdigit
    · exact Or.inr rfl
    · exact Or.inl ((spec.precision_ok digits hprecision).2 c hdigit)

/-- Only the modifier is lost. -/
theorem Spec.filter_front : spec.front.filter (· ≠ 'l'.toNat) = spec.strip.front := by
  have hflags : spec.flags.filter (· ≠ 'l'.toNat) = spec.flags :=
    List.filter_eq_self.mpr fun c hc => decide_eq_true (flag_bits (spec.flags_ok c hc)).2.2.1
  have hwidth : spec.width.filter (· ≠ 'l'.toNat) = spec.width :=
    List.filter_eq_self.mpr fun c hc => decide_eq_true (digit_bits (spec.width_ok c hc)).2.2.1
  have hpoint : spec.point.filter (· ≠ 'l'.toNat) = spec.point := by
    apply List.filter_eq_self.mpr
    intro c hc
    rcases spec.point_bits c hc with hdigit | rfl
    · exact decide_eq_true (digit_bits hdigit).2.2.1
    · rfl
  have hmodifier : spec.modifier.filter (· ≠ 'l'.toNat) = [] := by
    cases hlong : spec.long <;> simp [Spec.modifier, hlong]
  rw [Spec.front, List.filter_append, List.filter_append, List.filter_append, hflags, hwidth,
    hpoint, hmodifier]
  rfl

theorem Spec.front_bits : ∀ c ∈ spec.front, isLetter c = false ∧ c ≠ '%'.toNat := by
  intro c hc
  simp only [Spec.front, List.mem_append] at hc
  rcases hc with hflag | hdigit | hpoint | hmodifier
  · exact ⟨(flag_bits (spec.flags_ok c hflag)).1, (flag_bits (spec.flags_ok c hflag)).2.2.2⟩
  · exact ⟨(digit_bits (spec.width_ok c hdigit)).1, (digit_bits (spec.width_ok c hdigit)).2.2.2⟩
  · rcases spec.point_bits c hpoint with hdigit | rfl
    · exact ⟨(digit_bits hdigit).1, (digit_bits hdigit).2.2.2⟩
    · decide
  · cases hlong : spec.long with
    | false => simp [Spec.modifier, hlong] at hmodifier
    | true =>
      simp only [Spec.modifier, hlong, if_true, List.mem_singleton] at hmodifier
      rw [hmodifier]
      decide

variable {spec}

theorem Spec.letter (h : spec.conversion ≠ '%'.toNat) : isLetter spec.conversion = true := by
  have hmem := spec.conversion_ok
  rw [CONVERSIONS, List.mem_append, List.mem_singleton] at hmem
  rcases hmem with hletter | heq
  · simpa [isLetter] using hletter
  · exact absurd heq h

theorem Spec.dropRun_letter (h : spec.conversion ≠ '%'.toNat) (more : Str) :
    dropRun (spec.body ++ more) = spec.strip.body ++ normalize_format more := by
  rw [Spec.body, List.append_assoc, dropRun_append fun c hc => (spec.front_bits c hc).1,
    spec.filter_front, List.singleton_append, dropRun, if_pos (Spec.letter h)]
  simp [Spec.body, Spec.strip]

theorem Spec.dropRun_escape (h : spec.conversion = '%'.toNat) (more : Str) :
    dropRun (spec.body ++ more) = spec.strip.body ++ dropRun more := by
  rw [Spec.body, List.append_assoc, dropRun_append fun c hc => (spec.front_bits c hc).1,
    spec.filter_front, List.singleton_append, dropRun, h, if_neg (by decide),
    if_neg (by decide)]
  simp [Spec.body, Spec.strip, h]

/-- Without the modifier nothing is left only of nothing or of the modifier. -/
theorem Spec.front_of_strip (h : spec.strip.front = []) :
    spec.front = [] ∨ spec.front = ['l'.toNat] := by
  have hparts : spec.front = spec.strip.front ++ spec.modifier := by
    simp [Spec.front, Spec.strip, Spec.point, Spec.modifier]
  rw [hparts, h, Spec.modifier]
  cases spec.long with
  | false => exact Or.inl rfl
  | true => exact Or.inr rfl

/-- A percent sign follows only where there is nothing in front of it. -/
theorem Spec.head_body (h : spec.front ≠ [] ∨ spec.conversion ≠ '%'.toNat) (more : Str) :
    (spec.body ++ more).head? ≠ some '%'.toNat := by
  rw [Spec.body, List.append_assoc]
  cases hfront : spec.front with
  | nil => simpa [hfront] using h
  | cons c front =>
    have hbits := (spec.front_bits c (by rw [hfront]; exact List.mem_cons_self)).2
    simpa using hbits

end

/-! ## What is printed -/

/-- What a value is to be printed as. -/
def Spec.render (spec : Spec) (value : Int) : Str :=
  if spec.conversion = 'c'.toNat then formatChar spec.format value
  else formatLong spec.format value

/-- What a record is to be printed as: the literals, one percent sign for each
escape, and the values in order, each by its own conversion. -/
def printed : List Token → List UInt32 → Str
  | [], _ => []
  | .literal c _ :: tokens, values => c :: printed tokens values
  | .percent spec :: tokens, values =>
    match argType spec.conversion, values with
    | none, values => '%'.toNat :: printed tokens values
    | some arg_type, value :: values =>
      spec.render (signed arg_type value) ++ printed tokens values
    | some _, [] => []

/-- Python reads the parts, and has room for them. -/
structure Spec.Readable (spec : Spec) : Prop where
  ascii : spec.Ascii
  width : spec.format.width ≤ PY_SSIZE_T_MAX
  precision : spec.format.precision ≤ if spec.conversion = 'c'.toNat then INT_MAX else INT_MAX - 3

/-- The conversion prints the value. -/
def Spec.Takes (spec : Spec) (value : UInt32) : Prop :=
  spec.Readable ∧ (spec.conversion = 'c'.toNat → value < 0x110000)

theorem Spec.takes_strip {spec : Spec} {value : UInt32} :
    spec.strip.Takes value ↔ spec.Takes value := by
  constructor
  · rintro ⟨⟨hascii, hwidth, hprecision⟩, hchar⟩
    exact ⟨⟨hascii, hwidth, hprecision⟩, hchar⟩
  · rintro ⟨⟨hascii, hwidth, hprecision⟩, hchar⟩
    exact ⟨⟨hascii, hwidth, hprecision⟩, hchar⟩

theorem argType_none {conversion : Nat} (h : conversion ∈ CONVERSIONS) :
    argType conversion = none ↔ conversion = '%'.toNat := by
  revert conversion
  decide

theorem formatArg_iff {spec : Spec} {arg_type : ArgType}
    (htype : argType spec.conversion = some arg_type) (value : UInt32) {out : Str}
    (hprecision : spec.format.precision ≤ INT_MAX) :
    formatArg spec.format (signed arg_type value) = some out ↔
      spec.format.precision ≤ (if spec.conversion = 'c'.toNat then INT_MAX else INT_MAX - 3) ∧
        (spec.conversion = 'c'.toNat → value < 0x110000) ∧
        out = spec.render (signed arg_type value) := by
  have hconversion : spec.format.conversion = spec.conversion := rfl
  unfold formatArg Spec.render
  rw [hconversion]
  by_cases hchar : spec.conversion = 'c'.toNat
  · have hinteger : spec.conversion ∉ INTEGERS := by
      rw [hchar]
      decide
    have hsigned : signed arg_type value = value.toNat := by
      rw [hchar] at htype
      cases htype
      rfl
    have hrange : (signed arg_type value < 0 ∨ signed arg_type value > MAX_UNICODE) ↔
        ¬ value < 0x110000 := by
      rw [hsigned, UInt32.lt_iff_toNat_lt, MAX_UNICODE]
      show _ ↔ ¬ value.toNat < 0x110000
      omega
    rw [if_neg hinteger, if_pos hchar, if_pos hchar, if_pos hchar]
    by_cases hvalue : value < 0x110000
    · rw [if_neg (by rw [hrange]; exact not_not.mpr hvalue)]
      simp [hprecision, hvalue, eq_comm]
    · rw [if_pos (hrange.mpr hvalue)]
      simp [hchar, hvalue]
  · have hinteger : spec.conversion ∈ INTEGERS := by
      have hall : ∀ c ∈ CONVERSIONS, argType c ≠ none → c ≠ 'c'.toNat → c ∈ INTEGERS := by decide
      exact hall _ spec.conversion_ok (by rw [htype]; exact Option.some_ne_none _) hchar
    rw [if_pos hinteger, if_neg hchar, if_neg hchar]
    split
    · rename_i hlarge
      simp [not_le.mpr hlarge]
    · rename_i hsmall
      rw [and_iff_right (not_lt.mp hsmall), and_iff_right (fun h => absurd h hchar),
        Option.some.injEq, eq_comm]

theorem formatArg_none {format : Format} (value : Int) (hinteger : format.conversion ∉ INTEGERS)
    (hchar : format.conversion ≠ 'c'.toNat) : formatArg format value = none := by
  rw [formatArg, if_neg hinteger, if_neg hchar]

section
variable {spec : Spec} (more : Str)

/-- An escape with parts is no conversion to Python. -/
theorem percent_escape (h : spec.conversion = '%'.toNat) (hfront : spec.front ≠ [])
    (args : List Int) : percentFormat ('%'.toNat :: (spec.body ++ more)) args = none := by
  rw [percentFormat, if_neg (not_not.mpr rfl), if_neg (Spec.head_body (Or.inl hfront) more)]
  split
  · rfl
  · rename_i format after hread
    have hnone : format.conversion ∉ INTEGERS ∧ format.conversion ≠ 'c'.toNat := by
      by_cases hascii : spec.Ascii
      · rw [Spec.readFormat_ascii more hascii] at hread
        split at hread
        · cases hread
        · cases hread
          rw [show spec.format.conversion = spec.conversion from rfl, h]
          decide
      · exact Spec.readFormat_odd more hascii hread
    cases args with
    | nil => rfl
    | cons value args =>
      dsimp only
      rw [formatArg_none value hnone.1 hnone.2]

variable {arg_type : ArgType} (htype : argType spec.conversion = some arg_type) (args : List Int)
  {value : UInt32}
include htype

theorem Spec.not_escape : spec.conversion ≠ '%'.toNat := by
  rw [Ne, ← argType_none spec.conversion_ok, htype]
  exact Option.some_ne_none _

theorem percent_takes (h : spec.Takes value) :
    percentFormat ('%'.toNat :: (spec.body ++ more)) (signed arg_type value :: args) =
      (percentFormat more args).map (spec.render (signed arg_type value) ++ ·) := by
  obtain ⟨⟨hascii, hwidth, hprecision⟩, hchar⟩ := h
  have hmax : spec.format.precision ≤ INT_MAX := by
    split at hprecision <;> omega
  have hread : readFormat (spec.body ++ more) = some (spec.format, more) := by
    rw [Spec.readFormat_ascii more hascii, if_neg (by omega)]
  have htext := (formatArg_iff htype value hmax).mpr ⟨hprecision, hchar, rfl⟩
  rw [percentFormat, if_neg (not_not.mpr rfl),
    if_neg (Spec.head_body (Or.inr (Spec.not_escape htype)) more)]
  split
  · rename_i hnone
    rw [hnone] at hread
    cases hread
  · rename_i hread'
    rw [hread'] at hread
    cases hread
    dsimp only
    rw [htext]

theorem percent_refuses (h : ¬ spec.Takes value) :
    percentFormat ('%'.toNat :: (spec.body ++ more)) (signed arg_type value :: args) = none := by
  rw [percentFormat, if_neg (not_not.mpr rfl),
    if_neg (Spec.head_body (Or.inr (Spec.not_escape htype)) more)]
  split
  · rfl
  · rename_i format after hread
    have hnone : formatArg format (signed arg_type value) = none := by
      by_cases hascii : spec.Ascii
      · rw [Spec.readFormat_ascii more hascii] at hread
        split at hread
        · cases hread
        · rename_i hlimits
          cases hread
          cases htext : formatArg spec.format (signed arg_type value) with
          | none => rfl
          | some out =>
            obtain ⟨hprecision, hchar, -⟩ := (formatArg_iff htype value (by omega)).mp htext
            exact absurd ⟨⟨hascii, by omega, hprecision⟩, hchar⟩ h
      · obtain ⟨hinteger, hchar⟩ := Spec.readFormat_odd more hascii hread
        exact formatArg_none _ hinteger hchar
    dsimp only
    rw [hnone]

end

/-! ## From the tokens to the text -/

def Token.hasLetter : Token → Bool
  | .literal c _ => isLetter c
  | .percent spec => isLetter spec.conversion

def Token.isL : Token → Bool
  | .literal c _ => c == 'l'.toNat
  | .percent _ => false

/-- No literal `l` stands before the first letter. -/
def keepsL (tokens : List Token) : Bool :=
  (tokens.takeWhile (fun token => !token.hasLetter)).all (fun token => !token.isL)

theorem Spec.any_body (spec : Spec) : spec.body.any isLetter = isLetter spec.conversion := by
  have hfront : spec.front.any isLetter = false := by
    rw [List.any_eq_false]
    intro c hc
    simpa using (spec.front_bits c hc).1
  rw [Spec.body, List.any_append, hfront]
  simp

theorem not_letter_percent : isLetter '%'.toNat = false := by decide

theorem any_letter (tokens : List Token) :
    (text tokens).any isLetter = tokens.any Token.hasLetter := by
  induction tokens with
  | nil => rfl
  | cons token tokens ih =>
    rw [text, List.flatMap_cons, List.any_append, List.any_cons]
    congr 1
    cases token with
    | literal c plain => simp [Token.text, Token.hasLetter]
    | percent spec =>
      rw [Token.text, List.any_cons, spec.any_body, not_letter_percent]
      rfl

/-- What is handed to Python, from a place on where an `l` may be lost. -/
def handed (dropping : Bool) (tokens : List Token) : Str :=
  if dropping then dropRun (text tokens) else normalize_format (text tokens)

/-- What comes out of it. -/
def outcome (dropping : Bool) (tokens : List Token) (values : List UInt32) : Option Str :=
  percentFormat (handed dropping tokens) (List.zipWith signed (types tokens) values)

theorem outcome_nil (dropping : Bool) : outcome dropping [] [] = some [] := by
  have hnil : handed dropping [] = [] := by
    cases dropping with
    | true => rfl
    | false => exact normalize_format.eq_1
  rw [outcome, hnil]
  exact percentFormat.eq_1 _

theorem outcome_literal (dropping : Bool) {c : Nat} (plain : c ≠ '%'.toNat) (tokens : List Token)
    (values : List UInt32) :
    outcome dropping (.literal c plain :: tokens) values =
      if dropping = true ∧ c = 'l'.toNat then outcome dropping tokens values
      else (outcome (dropping && !isLetter c) tokens values).map (c :: ·) := by
  have htext : text (.literal c plain :: tokens) = c :: text tokens := rfl
  have htypes : types (.literal c plain :: tokens) = types tokens := rfl
  have hhanded : handed dropping (.literal c plain :: tokens) =
      if dropping = true ∧ c = 'l'.toNat then handed dropping tokens
      else c :: handed (dropping && !isLetter c) tokens := by
    cases dropping with
    | false =>
      rw [if_neg (by simp)]
      show normalize_format (c :: text tokens) = c :: normalize_format (text tokens)
      rw [normalize_format, if_pos plain]
    | true =>
      by_cases hl : c = 'l'.toNat
      · have hletter : ¬ isLetter 'l'.toNat = true := by decide
        rw [if_pos ⟨rfl, hl⟩]
        show dropRun (text (.literal c plain :: tokens)) = dropRun (text tokens)
        rw [htext, dropRun, hl, if_neg hletter, if_pos rfl]
      · rw [if_neg (fun h => hl h.2)]
        show dropRun (c :: text tokens) = _
        cases hletter : isLetter c with
        | true =>
          rw [dropRun, if_pos hletter]
          rfl
        | false =>
          rw [dropRun, if_neg (by simp [hletter]), if_neg hl]
          rfl
  rw [outcome, hhanded, htypes]
  split
  · rfl
  · rw [percentFormat, if_pos plain]
    rfl

section
variable {spec : Spec} (tokens : List Token) (values : List UInt32)

theorem types_escape (h : spec.conversion = '%'.toNat) :
    types (.percent spec :: tokens) = types tokens := by
  have hnone := (argType_none spec.conversion_ok).mpr h
  simp [types, Token.arg_type, hnone]

/-- A percent sign behind a percent sign. -/
theorem outcome_two {dropping after : Bool}
    (htypes : types (.percent spec :: tokens) = types tokens)
    (h : handed dropping (.percent spec :: tokens) =
      '%'.toNat :: '%'.toNat :: handed after tokens) :
    outcome dropping (.percent spec :: tokens) values =
      (outcome after tokens values).map ('%'.toNat :: ·) := by
  rw [outcome, htypes, h, percentFormat, if_neg (not_not.mpr rfl), if_pos List.head?_cons]
  rfl

theorem outcome_plain (dropping : Bool) (h : spec.conversion = '%'.toNat)
    (hfront : spec.front = []) :
    outcome dropping (.percent spec :: tokens) values =
      (outcome dropping tokens values).map ('%'.toNat :: ·) := by
  have htext : text (.percent spec :: tokens) = '%'.toNat :: '%'.toNat :: text tokens := by
    simp [text, Token.text, Spec.body, hfront, h]
  apply outcome_two tokens values (types_escape tokens h)
  cases dropping with
  | false =>
    show normalize_format (text (.percent spec :: tokens)) = _
    rw [htext, normalize_format, if_neg (not_not.mpr rfl), if_pos List.head?_cons]
    rfl
  | true =>
    show dropRun (text (.percent spec :: tokens)) = _
    rw [htext, dropRun, if_neg (by decide), if_neg (by decide), dropRun, if_neg (by decide),
      if_neg (by decide)]
    rfl

/-- Behind the percent sign of a format with parts, where a letter is to come. -/
theorem handed_percent (dropping : Bool) (h : spec.front ≠ [] ∨ spec.conversion ≠ '%'.toNat)
    (hletter : (spec.body ++ text tokens).any isLetter = true) :
    handed dropping (.percent spec :: tokens) =
      '%'.toNat :: dropRun (spec.body ++ text tokens) := by
  cases dropping with
  | false =>
    show normalize_format ('%'.toNat :: (spec.body ++ text tokens)) = _
    rw [normalize_percent (Spec.head_body h _), if_pos hletter]
  | true =>
    show dropRun ('%'.toNat :: (spec.body ++ text tokens)) = _
    rw [dropRun, if_neg (by decide), if_neg (by decide)]

theorem body_any (h : spec.conversion = '%'.toNat) :
    (spec.body ++ text tokens).any isLetter = tokens.any Token.hasLetter := by
  rw [List.any_append, spec.any_body, any_letter, h, not_letter_percent, Bool.false_or]

/-- An escape that loses its `l`. -/
theorem outcome_long (dropping : Bool) (h : spec.conversion = '%'.toNat)
    (hfront : spec.front = ['l'.toNat]) (hletter : tokens.any Token.hasLetter = true) :
    outcome dropping (.percent spec :: tokens) values =
      (outcome true tokens values).map ('%'.toNat :: ·) := by
  apply outcome_two tokens values (types_escape tokens h)
  rw [handed_percent tokens dropping (Or.inl (by rw [hfront]; exact List.cons_ne_nil _ _))
    (by rw [body_any tokens h, hletter]), Spec.dropRun_escape h, Spec.body, ← spec.filter_front,
    hfront]
  show _ :: (List.filter _ ['l'.toNat] ++ [spec.conversion] ++ _) = _
  rw [h]
  rfl

/-- An escape with parts that Python gets to see. -/
theorem outcome_other {dropping : Bool} (h : spec.conversion = '%'.toNat)
    (hfront : spec.front ≠ [])
    (hother : ¬ (spec.front = ['l'.toNat] ∧ tokens.any Token.hasLetter = true))
    (hdropping : dropping = true → (Token.percent spec :: tokens).any Token.hasLetter = true) :
    outcome dropping (.percent spec :: tokens) values = none := by
  cases hletter : tokens.any Token.hasLetter with
  | true =>
    rw [outcome,
      handed_percent tokens dropping (Or.inl hfront) (by rw [body_any tokens h, hletter]),
      Spec.dropRun_escape h]
    apply @percent_escape spec.strip _ h
    intro hstrip
    rcases Spec.front_of_strip hstrip with hnil | hl
    · exact hfront hnil
    · exact hother ⟨hl, hletter⟩
  | false =>
    have hnormal : dropping = false := by
      cases dropping with
      | false => rfl
      | true =>
        have hany := hdropping rfl
        rw [List.any_cons, hletter, Token.hasLetter, h, not_letter_percent] at hany
        cases hany
    have hhanded : handed false (.percent spec :: tokens) =
        '%'.toNat :: (spec.body ++ text tokens) := by
      show normalize_format ('%'.toNat :: (spec.body ++ text tokens)) = _
      rw [normalize_percent (Spec.head_body (Or.inl hfront) _), body_any tokens h, hletter,
        if_neg Bool.false_ne_true]
    rw [hnormal, outcome, hhanded]
    exact percent_escape _ h hfront _

theorem outcome_conversion {arg_type : ArgType} (dropping : Bool)
    (htype : argType spec.conversion = some arg_type) (value : UInt32) :
    outcome dropping (.percent spec :: tokens) (value :: values) =
      percentFormat ('%'.toNat :: (spec.strip.body ++ handed false tokens))
        (signed arg_type value :: List.zipWith signed (types tokens) values) := by
  have hconversion := Spec.not_escape htype
  have hletter : (spec.body ++ text tokens).any isLetter = true := by
    rw [List.any_append, spec.any_body, Spec.letter hconversion, Bool.true_or]
  have htypes : types (.percent spec :: tokens) = arg_type :: types tokens := by
    simp [types, Token.arg_type, htype]
  rw [outcome, handed_percent tokens dropping (Or.inr hconversion) hletter,
    Spec.dropRun_letter hconversion, htypes]
  rfl

end

/-! ## When a record is printed as it is to be -/

def Token.conversion : Token → Option Spec
  | .literal _ _ => none
  | .percent spec => if spec.conversion = '%'.toNat then none else some spec

/-- The conversions in order. -/
def conversions (tokens : List Token) : List Spec := tokens.filterMap Token.conversion

/-- Every escape is two percent signs, or has an `l` between them that goes: then a
letter has to follow, and no literal `l` before it. Every conversion prints its value. -/
structure Printable (tokens : List Token) (values : List UInt32) : Prop where
  escapes : ∀ spec after, .percent spec :: after <:+ tokens → spec.conversion = '%'.toNat →
    spec.front = [] ∨
      spec.front = ['l'.toNat] ∧ after.any Token.hasLetter = true ∧ keepsL after = true
  takes : ∀ pair ∈ (conversions tokens).zip values, pair.1.Takes pair.2

def Unescaped (tokens : List Token) : Prop := ∀ spec, Token.percent spec ∉ tokens

theorem conversions_escape {spec : Spec} (h : spec.conversion = '%'.toNat)
    (tokens : List Token) : conversions (.percent spec :: tokens) = conversions tokens :=
  List.filterMap_cons_none (if_pos h)

theorem conversions_conversion {spec : Spec} (h : spec.conversion ≠ '%'.toNat)
    (tokens : List Token) : conversions (.percent spec :: tokens) = spec :: conversions tokens :=
  List.filterMap_cons_some (if_neg h)

theorem keepsL_cons (token : Token) (tokens : List Token) :
    keepsL (token :: tokens) = (token.hasLetter || (!token.isL && keepsL tokens)) := by
  cases hletter : token.hasLetter <;> simp [keepsL, hletter]

theorem letter_literal {dropping : Bool} {c : Nat} {plain : c ≠ '%'.toNat} {tokens : List Token}
    (h : dropping = true → (Token.literal c plain :: tokens).any Token.hasLetter = true) :
    (dropping && !isLetter c) = true → tokens.any Token.hasLetter = true := by
  intro hstill
  obtain ⟨hdropping, hplain⟩ := Bool.and_eq_true_iff.mp hstill
  have hletter : isLetter c = false := by simpa using hplain
  have hany := h hdropping
  rwa [List.any_cons, Token.hasLetter, hletter, Bool.false_or] at hany

theorem keepsL_literal {dropping : Bool} {c : Nat} {plain : c ≠ '%'.toNat} {tokens : List Token} :
    (dropping = true → keepsL (.literal c plain :: tokens) = true) ↔
      ¬ (dropping = true ∧ c = 'l'.toNat) ∧
        ((dropping && !isLetter c) = true → keepsL tokens = true) := by
  have hl : isLetter 'l'.toNat = false := by decide
  rw [keepsL_cons, Token.hasLetter, Token.isL]
  cases dropping with
  | false => simp only [Bool.false_eq_true, false_implies, false_and, not_false_eq_true,
      Bool.false_and, and_self]
  | true =>
    by_cases heq : c = 'l'.toNat
    · rw [heq, hl]
      simp
    · cases hletter : isLetter c
      · simp only [beq_eq_false_iff_ne.mpr heq, heq, Bool.not_false, Bool.true_and,
          Bool.false_or, and_false, not_false_eq_true, true_and]
      · simp only [heq, Bool.true_or, and_false, not_false_eq_true, Bool.not_true,
          Bool.false_eq_true, false_implies, implies_true, Bool.and_false, and_self]

theorem any_escape {spec : Spec} (h : spec.conversion = '%'.toNat) (tokens : List Token) :
    (Token.percent spec :: tokens).any Token.hasLetter = tokens.any Token.hasLetter := by
  rw [List.any_cons, Token.hasLetter, h, not_letter_percent, Bool.false_or]

theorem keepsL_escape {spec : Spec} (h : spec.conversion = '%'.toNat) (tokens : List Token) :
    keepsL (.percent spec :: tokens) = keepsL tokens := by
  rw [keepsL_cons, Token.hasLetter, h, not_letter_percent, Bool.false_or, Token.isL,
    Bool.not_false, Bool.true_and]

theorem printable_literal {c : Nat} {plain : c ≠ '%'.toNat} {tokens : List Token}
    {values : List UInt32} :
    Printable (.literal c plain :: tokens) values ↔ Printable tokens values := by
  constructor
  · intro h
    exact ⟨fun spec after hsuffix => h.escapes spec after (hsuffix.trans (List.suffix_cons _ _)),
      h.takes⟩
  · intro h
    refine ⟨fun spec after hsuffix => ?_, h.takes⟩
    rcases List.suffix_cons_iff.mp hsuffix with heq | hrest
    · cases heq
    · exact h.escapes spec after hrest

theorem printable_percent {spec : Spec} {tokens : List Token} {values rest : List UInt32}
    (htakes : (∀ pair ∈ (conversions (.percent spec :: tokens)).zip values, pair.1.Takes pair.2) ↔
      (spec.conversion ≠ '%'.toNat → ∀ value ∈ values.head?, spec.Takes value) ∧
        ∀ pair ∈ (conversions tokens).zip rest, pair.1.Takes pair.2) :
    Printable (.percent spec :: tokens) values ↔
      (spec.conversion = '%'.toNat → spec.front = [] ∨ spec.front = ['l'.toNat] ∧
        tokens.any Token.hasLetter = true ∧ keepsL tokens = true) ∧
      (spec.conversion ≠ '%'.toNat → ∀ value ∈ values.head?, spec.Takes value) ∧
      Printable tokens rest := by
  constructor
  · intro h
    obtain ⟨hfirst, hrest⟩ := htakes.mp h.takes
    exact ⟨h.escapes spec tokens (List.suffix_refl _), hfirst,
      fun spec after hsuffix => h.escapes spec after (hsuffix.trans (List.suffix_cons _ _)), hrest⟩
  · rintro ⟨hescape, hfirst, hrest⟩
    refine ⟨fun other after hsuffix => ?_, htakes.mpr ⟨hfirst, hrest.takes⟩⟩
    rcases List.suffix_cons_iff.mp hsuffix with heq | hsuffix
    · cases heq
      exact hescape
    · exact hrest.escapes other after hsuffix

theorem printable_escape {spec : Spec} (h : spec.conversion = '%'.toNat) {tokens : List Token}
    {values : List UInt32} :
    Printable (.percent spec :: tokens) values ↔
      (spec.front = [] ∨ spec.front = ['l'.toNat] ∧ tokens.any Token.hasLetter = true ∧
        keepsL tokens = true) ∧ Printable tokens values := by
  rw [@printable_percent spec tokens values values]
  · simp [h]
  · simp [conversions_escape h, h]

theorem printable_conversion {spec : Spec} (h : spec.conversion ≠ '%'.toNat)
    {tokens : List Token} {value : UInt32} {values : List UInt32} :
    Printable (.percent spec :: tokens) (value :: values) ↔
      spec.Takes value ∧ Printable tokens values := by
  rw [@printable_percent spec tokens (value :: values) values]
  · simp only [List.head?_cons, Option.mem_some_iff, forall_eq', ne_eq, h, not_false_eq_true,
      forall_true_left, IsEmpty.forall_iff, true_and]
  · rw [conversions_conversion h, List.zip_cons_cons, List.forall_mem_cons, and_congr_left_iff]
    intro _
    simp only [List.head?_cons, Option.mem_some_iff, forall_eq', ne_eq, h, not_false_eq_true,
      forall_true_left]

theorem printed_escape {spec : Spec} (h : spec.conversion = '%'.toNat) (tokens : List Token)
    (values : List UInt32) :
    printed (.percent spec :: tokens) values = '%'.toNat :: printed tokens values := by
  rw [printed.eq_def]
  dsimp only
  rw [(argType_none spec.conversion_ok).mpr h]

theorem printed_conversion {spec : Spec} {arg_type : ArgType}
    (htype : argType spec.conversion = some arg_type) (tokens : List Token) (value : UInt32)
    (values : List UInt32) :
    printed (.percent spec :: tokens) (value :: values) =
      spec.render (signed arg_type value) ++ printed tokens values := by
  rw [printed.eq_def]
  dsimp only
  rw [htype]

/-- What is printable is printed. -/
theorem outcome_of_printable {dropping : Bool} {tokens : List Token} {values : List UInt32}
    (hcount : values.length = (types tokens).length)
    (hletter : dropping = true → tokens.any Token.hasLetter = true)
    (hkeeps : dropping = true → keepsL tokens = true) (h : Printable tokens values) :
    outcome dropping tokens values = some (printed tokens values) := by
  induction tokens generalizing dropping values with
  | nil =>
    rw [List.length_eq_zero_iff.mp hcount, outcome_nil]
    rfl
  | cons token tokens ih =>
    cases token with
    | literal c plain =>
      obtain ⟨hkept, hrest⟩ := keepsL_literal.mp hkeeps
      rw [outcome_literal, if_neg hkept,
        ih hcount (letter_literal hletter) hrest (printable_literal.mp h)]
      rfl
    | percent spec =>
      cases htype : argType spec.conversion with
      | none =>
        have hescape := (argType_none spec.conversion_ok).mp htype
        rw [types_escape tokens hescape] at hcount
        obtain ⟨hparts, hprintable⟩ := (printable_escape hescape).mp h
        rw [printed_escape hescape]
        rcases hparts with hfront | ⟨hfront, hany, hkept⟩
        · rw [any_escape hescape] at hletter
          rw [keepsL_escape hescape] at hkeeps
          rw [outcome_plain tokens values dropping hescape hfront,
            ih hcount hletter hkeeps hprintable]
          rfl
        · rw [outcome_long tokens values dropping hescape hfront hany,
            ih hcount (fun _ => hany) (fun _ => hkept) hprintable]
          rfl
      | some arg_type =>
        have htypes : types (.percent spec :: tokens) = arg_type :: types tokens := by
          simp [types, Token.arg_type, htype]
        rw [htypes] at hcount
        cases values with
        | nil => cases hcount
        | cons value values =>
          obtain ⟨htakes, hprintable⟩ := (printable_conversion (Spec.not_escape htype)).mp h
          have hrest := @ih false values (by simpa using hcount) Bool.noConfusion
            Bool.noConfusion hprintable
          rw [outcome_conversion tokens values dropping htype value,
            @percent_takes spec.strip _ _ htype _ _ (Spec.takes_strip.mpr htakes),
            printed_conversion htype]
          rw [outcome] at hrest
          rw [hrest]
          rfl

/-- What comes out is no longer than what is to be printed, and shorter unless the
format is printable. -/
theorem printable_of_outcome {dropping : Bool} {tokens : List Token} {values : List UInt32}
    {out : Str} (hcount : values.length = (types tokens).length)
    (hletter : dropping = true → tokens.any Token.hasLetter = true)
    (h : outcome dropping tokens values = some out) :
    out.length ≤ (printed tokens values).length ∧
      (out = printed tokens values →
        Printable tokens values ∧ (dropping = true → keepsL tokens = true)) := by
  induction tokens generalizing dropping values out with
  | nil =>
    rw [List.length_eq_zero_iff.mp hcount] at h ⊢
    rw [outcome_nil] at h
    cases h
    refine ⟨Nat.le_refl _, fun _ => ⟨⟨?_, ?_⟩, fun _ => rfl⟩⟩
    · intro spec after hsuffix
      cases List.suffix_nil.mp hsuffix
    · intro pair hpair
      cases hpair
  | cons token tokens ih =>
    cases token with
    | literal c plain =>
      have hafter := letter_literal hletter
      rw [outcome_literal] at h
      split at h
      · rename_i hlost
        have hplain : isLetter c = false := by
          rw [hlost.2]
          decide
        have hstill : dropping = true → tokens.any Token.hasLetter = true := by
          intro hdropping
          exact hafter (by rw [hdropping, hplain]; rfl)
        have hle := (ih hcount hstill h).1
        have hlength : (printed (.literal c plain :: tokens) values).length =
            (printed tokens values).length + 1 := rfl
        refine ⟨by omega, ?_⟩
        rintro rfl
        omega
      · rename_i hkept
        obtain ⟨rest, hrest, rfl⟩ := Option.map_eq_some_iff.mp h
        obtain ⟨hle, heq⟩ := ih hcount hafter hrest
        refine ⟨Nat.succ_le_succ hle, fun hprinted => ?_⟩
        obtain ⟨hprintable, hkeeps⟩ := heq (List.cons.inj hprinted).2
        exact ⟨printable_literal.mpr hprintable, keepsL_literal.mpr ⟨hkept, hkeeps⟩⟩
    | percent spec =>
      cases htype : argType spec.conversion with
      | none =>
        have hescape := (argType_none spec.conversion_ok).mp htype
        rw [types_escape tokens hescape] at hcount
        rw [printed_escape hescape, printable_escape hescape, keepsL_escape hescape]
        by_cases hfront : spec.front = []
        · rw [outcome_plain tokens values dropping hescape hfront] at h
          rw [any_escape hescape] at hletter
          obtain ⟨rest, hrest, rfl⟩ := Option.map_eq_some_iff.mp h
          obtain ⟨hle, heq⟩ := ih hcount hletter hrest
          refine ⟨Nat.succ_le_succ hle, fun hprinted => ?_⟩
          obtain ⟨hprintable, hkeeps⟩ := heq (List.cons.inj hprinted).2
          exact ⟨⟨Or.inl hfront, hprintable⟩, hkeeps⟩
        · by_cases hlong : spec.front = ['l'.toNat] ∧ tokens.any Token.hasLetter = true
          · obtain ⟨hl, hany⟩ := hlong
            rw [outcome_long tokens values dropping hescape hl hany] at h
            obtain ⟨rest, hrest, rfl⟩ := Option.map_eq_some_iff.mp h
            obtain ⟨hle, heq⟩ := ih hcount (fun _ => hany) hrest
            refine ⟨Nat.succ_le_succ hle, fun hprinted => ?_⟩
            obtain ⟨hprintable, hkeeps⟩ := heq (List.cons.inj hprinted).2
            exact ⟨⟨Or.inr ⟨hl, hany, hkeeps rfl⟩, hprintable⟩, fun _ => hkeeps rfl⟩
          · rw [outcome_other tokens values hescape hfront hlong hletter] at h
            cases h
      | some arg_type =>
        have htypes : types (.percent spec :: tokens) = arg_type :: types tokens := by
          simp [types, Token.arg_type, htype]
        rw [htypes] at hcount
        cases values with
        | nil => cases hcount
        | cons value values =>
          rw [printed_conversion htype, printable_conversion (Spec.not_escape htype)]
          rw [outcome_conversion tokens values dropping htype value] at h
          by_cases htakes : spec.Takes value
          · rw [@percent_takes spec.strip _ _ htype _ _ (Spec.takes_strip.mpr htakes)] at h
            obtain ⟨rest, hrest, rfl⟩ := Option.map_eq_some_iff.mp h
            obtain ⟨hle, heq⟩ :=
              @ih false values rest (by simpa using hcount) Bool.noConfusion hrest
            rw [List.length_append, List.length_append]
            refine ⟨Nat.add_le_add_left hle _, fun hprinted => ?_⟩
            obtain ⟨hprintable, -⟩ := heq (List.append_cancel_left hprinted)
            refine ⟨⟨htakes, hprintable⟩, fun _ => ?_⟩
            rw [keepsL_cons, Token.hasLetter, Spec.letter (Spec.not_escape htype), Bool.true_or]
          · rw [@percent_refuses spec.strip _ _ htype _ _ (mt Spec.takes_strip.mp htakes)] at h
            cases h

/-! ## A record with no arguments -/

theorem no_types {tokens : List Token} (h : types tokens = []) {spec : Spec}
    (hmem : .percent spec ∈ tokens) : spec.conversion = '%'.toNat := by
  apply (argType_none spec.conversion_ok).mp
  exact List.filterMap_eq_nil_iff.mp h _ hmem

theorem printed_length_le {tokens : List Token} (h : types tokens = []) :
    (printed tokens []).length ≤ (text tokens).length := by
  induction tokens with
  | nil => exact Nat.le_refl _
  | cons token tokens ih =>
    cases token with
    | literal c plain => exact Nat.succ_le_succ (ih h)
    | percent spec =>
      have hescape := no_types h List.mem_cons_self
      rw [types_escape tokens hescape] at h
      rw [printed_escape hescape, text, List.flatMap_cons, List.length_append]
      have hle := ih h
      simp only [Token.text, List.length_cons]
      rw [text] at hle
      omega

/-- A text that is handed on as it is has no escapes. -/
theorem text_eq_printed {tokens : List Token} (h : types tokens = []) :
    text tokens = printed tokens [] ↔ Unescaped tokens := by
  induction tokens with
  | nil => simp [text, printed, Unescaped]
  | cons token tokens ih =>
    cases token with
    | literal c plain =>
      have hunescaped : Unescaped (.literal c plain :: tokens) ↔ Unescaped tokens := by
        simp [Unescaped]
      rw [hunescaped, ← ih h]
      exact List.cons_inj_right c
    | percent spec =>
      have hescape := no_types h List.mem_cons_self
      rw [types_escape tokens hescape] at h
      have hle := printed_length_le h
      constructor
      · intro heq
        have hlength := congrArg List.length heq
        rw [printed_escape hescape, text, List.flatMap_cons, List.length_append] at hlength
        simp only [Token.text, Spec.body, List.length_cons, List.length_append,
          List.length_nil] at hlength
        rw [text] at hle
        omega
      · intro hunescaped
        exact absurd List.mem_cons_self (hunescaped spec)

/-! ## The records -/

theorem parse_format_text {tokens : List Token} {arg_types : List ArgType}
    (h : parse_format (text tokens) = .ok arg_types) : arg_types = types tokens := by
  rw [parse_format, parseLoop_text] at h
  dsimp only at h
  split at h
  · cases h
  · cases h
    rfl

/-- For every format that the extractor accepts and every list of as many values: the
record is printed as it is to be exactly when, with no values, the format has no escape,
and otherwise when it is printable. -/
theorem prints_iff {format_string : Str} {arg_types : List ArgType}
    (haccepted : parse_format format_string = .ok arg_types) :
    (∃ tokens, text tokens = format_string) ∧
      ∀ tokens, text tokens = format_string →
        ∀ values : List UInt32, values.length = arg_types.length →
          (format_record ⟨format_string, arg_types⟩ values = some (printed tokens values) ↔
            if values = [] then Unescaped tokens else Printable tokens values) := by
  constructor
  · rw [parse_format] at haccepted
    split at haccepted
    · cases haccepted
    · exact tokens_of_parseLoop ‹_›
  · rintro tokens rfl values hcount
    obtain rfl := parse_format_text haccepted
    rw [format_record, if_neg (not_not.mpr hcount.symm)]
    dsimp only
    by_cases hnil : values = []
    · rw [hnil] at hcount ⊢
      have htypes : types tokens = [] := List.length_eq_zero_iff.mp hcount.symm
      rw [List.zipWith_nil_right, if_pos rfl, if_pos rfl, Option.some.injEq, text_eq_printed htypes]
    · have hvalues : List.zipWith signed (types tokens) values ≠ [] := by
        intro hzip
        have hlength := congrArg List.length hzip
        rw [List.length_zipWith, hcount, Nat.min_self] at hlength
        exact hnil (List.length_eq_zero_iff.mp (hcount.trans hlength))
      rw [if_neg hvalues, if_neg hnil]
      constructor
      · intro hprinted
        exact ((@printable_of_outcome false _ _ _ hcount Bool.noConfusion hprinted).2 rfl).1
      · intro hprintable
        exact @outcome_of_printable false _ _ hcount Bool.noConfusion Bool.noConfusion hprintable

/-- A percent sign with a conversion and nothing between them. -/
def bare (conversion : Nat) (h : conversion ∈ CONVERSIONS) : Spec where
  flags := []
  width := []
  precision := none
  long := false
  conversion
  flags_ok := by simp
  width_ok := by simp
  width_start := by simp
  precision_ok := by simp
  conversion_ok := h

/-- `n=%d`. -/
def countFormat : List Token :=
  [.literal 'n'.toNat (by decide), .literal '='.toNat (by decide),
    .percent (bare 'd'.toNat (by decide))]

theorem prints_iff_negative :
    format_record ⟨text countFormat, [.i32]⟩ [0xFFFFFFFE] =
      some (printed countFormat [0xFFFFFFFE]) := by
  have haccepted : parse_format (text countFormat) = .ok [.i32] := by
    rw [parse_format, parseLoop_text]
    rfl
  have htakes : (bare 'd'.toNat (by decide)).Takes 0xFFFFFFFE := by
    refine ⟨⟨⟨by simp [bare], by simp [bare]⟩, by decide, by decide⟩, ?_⟩
    intro hchar
    exact absurd hchar (by decide)
  apply ((prints_iff haccepted).2 countFormat rfl [0xFFFFFFFE] rfl).mpr
  rw [if_neg (List.cons_ne_nil _ _)]
  refine printable_literal.mpr (printable_literal.mpr ?_)
  exact (printable_conversion (by decide)).mpr ⟨htakes, by simp, by simp [conversions]⟩

/-- `100%%`. -/
def fullFormat : List Token :=
  [.literal '1'.toNat (by decide), .literal '0'.toNat (by decide), .literal '0'.toNat (by decide),
    .percent (bare '%'.toNat (by decide))]

/-- With no values the escape stays as it is written. -/
theorem full_format_kept :
    text fullFormat = ['1', '0', '0', '%', '%'].map Char.toNat ∧
      parse_format (text fullFormat) = .ok [] ∧
      format_record ⟨text fullFormat, []⟩ [] = some (['1', '0', '0', '%', '%'].map Char.toNat) ∧
      printed fullFormat [] = ['1', '0', '0', '%'].map Char.toNat ∧
      format_record ⟨text fullFormat, []⟩ [] ≠ some (printed fullFormat []) := by
  refine ⟨rfl, ?_, rfl, rfl, by decide⟩
  rw [parse_format, parseLoop_text]
  rfl

end stm32_vibe.trace_format
