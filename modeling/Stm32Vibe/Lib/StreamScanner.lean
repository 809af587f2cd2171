-- A scanner that eats a stream from the front. However the stream is cut into
-- chunks, it gives the same output.
import Mathlib.Data.List.Basic
import Mathlib.Tactic

namespace stream_scanner

universe u

/-- What the front of the input decides: nothing yet, or an output and how much
input it is for. More input changes no decision. -/
structure Scanner (β ρ : Type u) where
  front : List β → Option (List ρ × Nat)
  front_pos : ∀ {input out size}, front input = some (out, size) → 0 < size
  front_le : ∀ {input out size}, front input = some (out, size) → size ≤ input.length
  front_append : ∀ {input out size} (more : List β), front input = some (out, size) →
    front (input ++ more) = some (out, size)

section
variable {β ρ : Type u}

section
variable (scanner : Scanner β ρ)

/-- The output of an input, and the rest that waits for more. -/
def scan (input : List β) : List ρ × List β :=
  match _h : scanner.front input with
  | none => ([], input)
  | some (out, size) =>
    (out ++ (scan (input.drop size)).1, (scan (input.drop size)).2)
termination_by input.length
decreasing_by
  all_goals
    have hpos := scanner.front_pos _h
    have hle := scanner.front_le _h
    simp only [List.length_drop]
    omega

theorem scan_wait {input : List β} (h : scanner.front input = none) :
    scan scanner input = ([], input) := by
  rw [scan]
  split
  · rfl
  · rename_i hsome
    rw [h] at hsome
    cases hsome

theorem scan_eat {input : List β} {out : List ρ} {size : Nat}
    (h : scanner.front input = some (out, size)) :
    scan scanner input =
      (out ++ (scan scanner (input.drop size)).1, (scan scanner (input.drop size)).2) := by
  rw [scan]
  split
  · rename_i hnone
    rw [h] at hnone
    cases hnone
  · rename_i hsome
    rw [h] at hsome
    cases hsome
    rfl

/-- Nothing is decided about an empty input. -/
@[simp] theorem front_nil : scanner.front [] = none := by
  cases h : scanner.front [] with
  | none => rfl
  | some result =>
    have hpos := scanner.front_pos h
    have hle := scanner.front_le h
    simp only [List.length_nil] at hle
    omega

@[simp] theorem scan_nil : scan scanner [] = ([], []) := scan_wait scanner (front_nil scanner)

/-- An input in two parts: the second goes on where the first has to wait. -/
theorem scan_append (input more : List β) :
    scan scanner (input ++ more) =
      ((scan scanner input).1 ++ (scan scanner ((scan scanner input).2 ++ more)).1,
        (scan scanner ((scan scanner input).2 ++ more)).2) := by
  induction hlength : input.length using Nat.strong_induction_on generalizing input with
  | _ length ih =>
    cases h : scanner.front input with
    | none => simp [scan_wait scanner h]
    | some result =>
      obtain ⟨out, size⟩ := result
      have hpos := scanner.front_pos h
      have hle := scanner.front_le h
      have hrest := ih (input.drop size).length (by rw [List.length_drop]; omega)
        (input.drop size) rfl
      rw [scan_eat scanner (scanner.front_append more h), scan_eat scanner h,
        List.drop_append_of_le_length hle, hrest]
      simp [List.append_assoc]

/-- What waits stays as it is until more comes. -/
theorem scan_rest (input : List β) : scanner.front (scan scanner input).2 = none := by
  induction hlength : input.length using Nat.strong_induction_on generalizing input with
  | _ length ih =>
    cases h : scanner.front input with
    | none => rwa [scan_wait scanner h]
    | some result =>
      obtain ⟨out, size⟩ := result
      have hpos := scanner.front_pos h
      have hle := scanner.front_le h
      rw [scan_eat scanner h]
      exact ih (input.drop size).length (by rw [List.length_drop]; omega) (input.drop size) rfl

/-! ## Chunks -/

/-- One chunk, after a rest that waits. -/
def feed (rest data : List β) : List ρ × List β := scan scanner (rest ++ data)

/-- A row of chunks: the outputs together, and the last rest. -/
def feedAll : List β → List (List β) → List ρ × List β
  | rest, [] => ([], rest)
  | rest, data :: chunks =>
    ((feed scanner rest data).1 ++ (feedAll (feed scanner rest data).2 chunks).1,
      (feedAll (feed scanner rest data).2 chunks).2)

theorem feedAll_eq {rest : List β} (hrest : scanner.front rest = none) (chunks : List (List β)) :
    feedAll scanner rest chunks = scan scanner (rest ++ chunks.flatten) := by
  induction chunks generalizing rest with
  | nil => simp [feedAll, scan_wait scanner hrest]
  | cons data chunks ih =>
    have hnext : scanner.front (feed scanner rest data).2 = none := scan_rest scanner _
    rw [feedAll, ih hnext, List.flatten_cons, ← List.append_assoc,
      scan_append scanner (rest ++ data) chunks.flatten]
    rfl

/-- However a stream is cut, the outputs are those of the whole. -/
theorem feedAll_flatten (chunks : List (List β)) :
    feedAll scanner [] chunks = scan scanner chunks.flatten :=
  feedAll_eq scanner (front_nil scanner) chunks

end

/-! ## A loop over a buffer -/

/-- A turn that does not stop deletes some bytes, and no more than there are. -/
def Bounded (turn : List β → Option (List ρ × Nat)) : Prop :=
  ∀ buffer out size, buffer ≠ [] → turn buffer = some (out, size) →
    0 < size ∧ size ≤ buffer.length

/-- Whatever follows a buffer does not change a turn that does not stop. -/
def Stable (turn : List β → Option (List ρ × Nat)) : Prop :=
  ∀ buffer out size more, buffer ≠ [] → turn buffer = some (out, size) →
    turn (buffer ++ more) = some (out, size)

/-- A loop that runs while the buffer is not empty: its output, and the buffer
that it leaves. -/
def whileLoop (turn : List β → Option (List ρ × Nat)) (hbounded : Bounded turn)
    (buffer : List β) : List ρ × List β :=
  if _hne : buffer = [] then ([], buffer)
  else
    match _h : turn buffer with
    | none => ([], buffer)
    | some (out, size) =>
      (out ++ (whileLoop turn hbounded (buffer.drop size)).1,
        (whileLoop turn hbounded (buffer.drop size)).2)
termination_by buffer.length
decreasing_by
  all_goals
    have hbounds := hbounded _ _ _ _hne _h
    rw [List.length_drop]
    omega

/-- The scanner of a loop. -/
def ofTurn {turn : List β → Option (List ρ × Nat)} (hbounded : Bounded turn)
    (hstable : Stable turn) : Scanner β ρ where
  front input := if input = [] then none else turn input
  front_pos h := by
    split at h
    · cases h
    · exact (hbounded _ _ _ ‹_› h).1
  front_le h := by
    split at h
    · cases h
    · exact (hbounded _ _ _ ‹_› h).2
  front_append more h := by
    split at h
    · cases h
    · rename_i hne
      rw [if_neg (by simp [hne])]
      exact hstable _ _ _ more hne h

theorem front_ofTurn {turn : List β → Option (List ρ × Nat)} (hbounded : Bounded turn)
    (hstable : Stable turn) {input : List β} (hne : input ≠ []) :
    (ofTurn hbounded hstable).front input = turn input :=
  if_neg hne

/-- The loop is the scan. -/
theorem whileLoop_eq {turn : List β → Option (List ρ × Nat)} (hbounded : Bounded turn)
    (hstable : Stable turn) (buffer : List β) :
    whileLoop turn hbounded buffer = scan (ofTurn hbounded hstable) buffer := by
  induction buffer using whileLoop.induct turn hbounded with
  | case1 => rw [whileLoop, dif_pos rfl, scan_nil]
  | case2 buffer hne hstop =>
    rw [whileLoop, dif_neg hne, scan_wait _ ((front_ofTurn hbounded hstable hne).trans hstop)]
    split
    · rfl
    · rename_i hgo
      rw [hgo] at hstop
      cases hstop
  | case3 buffer hne out size hgo ih =>
    rw [whileLoop, dif_neg hne, scan_eat _ ((front_ofTurn hbounded hstable hne).trans hgo), ← ih]
    split
    · rename_i hstop
      rw [hstop] at hgo
      cases hgo
    · rename_i hgo'
      rw [hgo'] at hgo
      cases hgo
      rfl

/-! ## A reader that keeps the rest -/

section
variable {σ : Type u} (scanner : Scanner β ρ)

/-- The outputs of a row of chunks, and the state of the reader after them. -/
def feedEach (read : σ → List β → List ρ × σ) : σ → List (List β) → List ρ × σ
  | state, [] => ([], state)
  | state, data :: chunks =>
    ((read state data).1 ++ (feedEach read (read state data).2 chunks).1,
      (feedEach read (read state data).2 chunks).2)

/-- A reader whose state is the rest of a scan. -/
theorem feedEach_eq {read : σ → List β → List ρ × σ} {keep : List β → σ}
    (h : ∀ rest data, read (keep rest) data =
      ((scan scanner (rest ++ data)).1, keep (scan scanner (rest ++ data)).2))
    (rest : List β) (chunks : List (List β)) :
    feedEach read (keep rest) chunks =
      ((feedAll scanner rest chunks).1, keep (feedAll scanner rest chunks).2) := by
  induction chunks generalizing rest with
  | nil => rfl
  | cons data chunks ih =>
    rw [feedEach, h rest data, ih]
    rfl

end

/-! ## A row of pieces -/

/-- A stream of pieces, each with the output that is decided when it stands in
front, gives the outputs in order. -/
theorem scan_pieces {ι : Type u} (scanner : Scanner β ρ) (encode : ι → List β)
    (record : ι → List ρ)
    (h : ∀ piece more, scanner.front (encode piece ++ more) =
      some (record piece, (encode piece).length)) (pieces : List ι) (more : List β) :
    scan scanner (pieces.flatMap encode ++ more) =
      (pieces.flatMap record ++ (scan scanner more).1, (scan scanner more).2) := by
  induction pieces with
  | nil => simp
  | cons piece pieces ih =>
    rw [List.flatMap_cons, List.append_assoc, scan_eat scanner (h piece _), List.drop_left, ih]
    simp

/-- A reader with a loop that takes one piece in each turn: however the stream of
the pieces is cut, it gives the outputs in order and keeps nothing. -/
theorem feedEach_pieces {ι σ : Type u} {turn : List β → Option (List ρ × Nat)}
    (hbounded : Bounded turn) (hstable : Stable turn) {read : σ → List β → List ρ × σ}
    {keep : List β → σ}
    (hread : ∀ rest data, read (keep rest) data =
      ((whileLoop turn hbounded (rest ++ data)).1, keep (whileLoop turn hbounded (rest ++ data)).2))
    {encode : ι → List β} {record : ι → List ρ} (hne : ∀ piece, encode piece ≠ [])
    (hturn : ∀ piece more, turn (encode piece ++ more) =
      some (record piece, (encode piece).length))
    (pieces : List ι) {chunks : List (List β)} (hchunks : chunks.flatten = pieces.flatMap encode) :
    feedEach read (keep []) chunks = (pieces.flatMap record, keep []) := by
  let scanner := ofTurn hbounded hstable
  have hscan : ∀ rest data, read (keep rest) data =
      ((scan scanner (rest ++ data)).1, keep (scan scanner (rest ++ data)).2) := by
    intro rest data
    rw [hread, whileLoop_eq hbounded hstable]
  have hfront : ∀ piece more, scanner.front (encode piece ++ more) =
      some (record piece, (encode piece).length) := by
    intro piece more
    rw [front_ofTurn hbounded hstable (by simp [hne piece]), hturn]
  have hwhole := scan_pieces scanner encode record hfront pieces []
  rw [List.append_nil, ← hchunks, scan_nil, List.append_nil] at hwhole
  rw [feedEach_eq scanner hscan, feedAll_flatten, hwhole]

end

end stream_scanner
