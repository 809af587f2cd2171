-- What the decoder of the trace records is for: the frames of a stream in the
-- order in which they stand there, whatever stands between them.
import Stm32Vibe.FrameDecoder
import Stm32Vibe.Lib.GreedyScan

namespace stm32_vibe.frame_scan

open little_endian stream_scanner greedy_scan frame_decoder

/-! ## The frames -/

/-- A frame: the marker, the version, at most four arguments behind the event id
and their number, and the checksum of all but the marker. -/
structure IsFrame (frame : List UInt8) : Prop where
  sync : frame.take 2 = [0xA5, 0x5A]
  version : frame.getD 2 0 = 1
  few : frame.getD 5 0 ≤ 4
  length : frame.length = 7 + (frame.getD 5 0).toNat * 4
  crc : crc8 (frame.drop 2).dropLast = frame.getLastD 0

/-- The event id of a frame and its arguments. -/
def recordOf (frame : List UInt8) : Record :=
  (packHalf (frame.getD 3 0) (frame.getD 4 0),
    (List.range (frame.getD 5 0).toNat).map (unpackArg frame))

theorem IsFrame.long {frame : List UInt8} (h : IsFrame frame) : 7 ≤ frame.length := by
  rw [h.length]
  omega

def traceFrames : Frames UInt8 where
  IsFrame := IsFrame
  not_nil h := absurd h.long (by simp)
  prefix_free := by
    intro frame more hframe hlong
    have hlength := hlong.length
    rw [List.getD_append _ _ _ _ (by have := hframe.long; omega), ← hframe.length,
      List.length_append] at hlength
    exact List.length_eq_zero_iff.mp (by omega)

/-! ## The decoder at the front -/

/-- A frame is found where it stands. -/
theorem front_frame {frame : List UInt8} (h : IsFrame frame) (more : List UInt8) :
    scanner.front (frame ++ more) = some ([recordOf frame], frame.length) := by
  have hlong := h.long
  apply scanner.front_append
  rw [front_sync h.sync, checkFrame, if_neg (by omega)]
  dsimp only
  rw [if_neg, if_neg (by rw [h.length]; omega), ← h.length, List.take_length,
    if_neg (not_not.mpr h.crc)]
  · rfl
  · rintro (hversion | hmany)
    · exact hversion h.version
    · exact absurd h.few (UInt8.not_le.mpr hmany)

/-- What is passed is not the beginning of a frame. -/
theorem no_frame {input : List UInt8} {size : Nat} (h : scanner.front input = some ([], size)) :
    ¬ Starts traceFrames input ∧ ¬ Unfinished traceFrames input := by
  constructor
  · rintro ⟨frame, hframe, more, rfl⟩
    rw [front_frame hframe] at h
    cases h
  · rintro ⟨-, more, -, hframe⟩
    have hfound := front_frame hframe []
    rw [List.append_nil, scanner.front_append more h] at hfound
    cases hfound

/-- What is taken is a frame. -/
theorem checkFrame_cases {input : List UInt8} {records : List Record} {size : Nat}
    (hsync : input.take 2 = TRACE_SYNC) (h : checkFrame input = some (records, size)) :
    records = [] ∧ size = 1 ∨
      IsFrame (input.take size) ∧ records = [recordOf (input.take size)] := by
  unfold checkFrame at h
  split at h
  · cases h
  rename_i hlong
  dsimp only at h
  split at h
  · cases h
    exact Or.inl ⟨rfl, rfl⟩
  rename_i haccept
  split at h
  · cases h
  rename_i hcomplete
  split at h
  · cases h
    exact Or.inl ⟨rfl, rfl⟩
  rename_i hcrc
  cases h
  have hbyte : ∀ k, ∀ i < 7, (input.take (7 + k)).getD i 0 = input.getD i 0 := by
    intro k i hi
    simp only [List.getD, List.getElem?_take_of_lt (show i < 7 + k by omega)]
  refine Or.inr ⟨⟨?_, ?_, ?_, ?_, not_not.mp hcrc⟩, ?_⟩
  · rw [List.take_take, Nat.min_eq_left (by omega)]
    exact hsync
  · rw [hbyte _ 2 (by omega)]
    exact not_not.mp (not_or.mp haccept).1
  · rw [hbyte _ 5 (by omega)]
    exact UInt8.not_lt.mp (not_or.mp haccept).2
  · rw [hbyte _ 5 (by omega), List.length_take_of_le (by omega)]
  · rw [recordOf, hbyte _ 3 (by omega), hbyte _ 4 (by omega), hbyte _ 5 (by omega)]

/-- Bytes that the header asks for and that are not there yet can be such that a
frame stands there. -/
theorem unfinished_of_short {input : List UInt8} (hsync : input.take 2 = TRACE_SYNC)
    (hlong : 7 ≤ input.length) (hversion : input.getD 2 0 = TRACE_VERSION)
    (hfew : input.getD 5 0 ≤ TRACE_MAX_ARGS)
    (hshort : input.length < 7 + (input.getD 5 0).toNat * 4) : Unfinished traceFrames input := by
  obtain ⟨missing, hmissing⟩ := Nat.exists_eq_add_of_lt hshort
  let padding : List UInt8 := List.replicate missing 0
  let crc := crc8 ((input ++ padding).drop 2)
  have hbyte : ∀ i < 7, (input ++ (padding ++ [crc])).getD i 0 = input.getD i 0 := by
    intro i hi
    exact List.getD_append _ _ _ _ (by omega)
  refine ⟨List.ne_nil_of_length_pos (by omega), padding ++ [crc], by simp, ?_, ?_, ?_, ?_, ?_⟩
  · rw [List.take_append_of_le_length (by omega)]
    exact hsync
  · rw [hbyte 2 (by omega)]
    exact hversion
  · rw [hbyte 5 (by omega)]
    exact hfew
  · rw [hbyte 5 (by omega), hmissing]
    simp [padding]
    omega
  · rw [← List.append_assoc, List.drop_append_of_le_length (by rw [List.length_append]; omega),
      List.dropLast_concat, List.getLastD_concat]

/-- The decoder waits for a frame, or for bytes too few for any. -/
theorem front_waits {input : List UInt8} (h : scanner.front input = none) :
    input.length < 7 ∨ Unfinished traceFrames input := by
  have h : front input = none := h
  unfold front at h
  split at h
  · rename_i hend
    left
    rcases hend with rfl | rfl <;> decide
  split at h
  · cases h
  rename_i hsync
  unfold checkFrame at h
  split at h
  · exact Or.inl ‹_›
  rename_i hlong
  dsimp only at h
  split at h
  · cases h
  rename_i haccept
  split at h
  · rename_i hshort
    obtain ⟨hversion, hfew⟩ := not_or.mp haccept
    exact Or.inr (unfinished_of_short (not_not.mp hsync) (by omega) (not_not.mp hversion)
      (UInt8.not_lt.mp hfew) hshort)
  · split at h <;> cases h

/-- What the decoder does at the front: it passes a byte, or takes a frame. -/
theorem front_cases {input : List UInt8} {records : List Record} {size : Nat}
    (h : scanner.front input = some (records, size)) :
    records = [] ∧ size = 1 ∨
      IsFrame (input.take size) ∧ records = [recordOf (input.take size)] := by
  have h : front input = some (records, size) := h
  unfold front at h
  split at h
  · cases h
  split at h
  · cases h
    exact Or.inl ⟨rfl, rfl⟩
  · rename_i hsync
    exact checkFrame_cases (not_not.mp hsync) h

/-! ## The reading -/

/-- The records of a scan are those of the reading. -/
theorem scan_greedy (offset : Nat) (input : List UInt8) :
    ∃ emitted stop, Greedy traceFrames offset input emitted stop ∧
      (scan scanner input).1 = emitted.map (fun e => recordOf e.2) := by
  induction hlength : input.length using Nat.strong_induction_on generalizing offset input with
  | _ length ih =>
    cases h : scanner.front input with
    | none =>
      rw [scan_wait scanner h]
      rcases front_waits h with hshort | hunfinished
      · obtain ⟨stop, hgreedy⟩ :=
          @greedy_short _ traceFrames _ (fun _ => IsFrame.long) offset _ hshort
        exact ⟨[], stop, hgreedy, rfl⟩
      · exact ⟨[], offset, .stop (Or.inr hunfinished), rfl⟩
    | some result =>
      obtain ⟨records, size⟩ := result
      have hpos := scanner.front_pos h
      have hle := scanner.front_le h
      rw [scan_eat scanner h]
      rcases front_cases h with ⟨rfl, rfl⟩ | ⟨hframe, hrecords⟩
      · obtain ⟨hstarts, hunfinished⟩ := no_frame h
        obtain ⟨emitted, stop, hgreedy, hscan⟩ := ih (input.drop 1).length
          (by rw [List.length_drop]; omega) (offset + 1) (input.drop 1) rfl
        rw [List.drop_one] at hgreedy
        exact ⟨emitted, stop, .skip (List.ne_nil_of_length_pos (by omega)) hstarts hunfinished
          hgreedy, by rw [List.nil_append, hscan]⟩
      · have hsize : (input.take size).length = size := List.length_take_of_le hle
        obtain ⟨emitted, stop, hgreedy, hscan⟩ := ih (input.drop size).length
          (by rw [List.length_drop]; omega) (offset + size) (input.drop size) rfl
        refine ⟨(offset, input.take size) :: emitted, stop, ?_, ?_⟩
        · refine .emit hframe (List.take_prefix size input) ?_
          rwa [hsize]
        · rw [hrecords, hscan]
          rfl

/-- However a stream is cut, the decoder gives the records of its one reading from
the left, and every frame that starts before the stop is among them, or starts
inside one that is. -/
theorem feedAll_greedy (chunks : List (List UInt8)) :
    ∃ emitted stop,
      (∀ emitted' stop', Greedy traceFrames 0 chunks.flatten emitted' stop' ↔
        emitted' = emitted ∧ stop' = stop) ∧
      FrameDecoder.init.feedAll chunks = emitted.map (fun e => recordOf e.2) ∧
      ∀ before frame after, chunks.flatten = before ++ frame ++ after → IsFrame frame →
        before.length < stop →
          (before.length, frame) ∈ emitted ∨
            ∃ e ∈ emitted, e.1 < before.length ∧ before.length < e.1 + e.2.length := by
  obtain ⟨emitted, stop, hgreedy, hscan⟩ := scan_greedy 0 chunks.flatten
  refine ⟨emitted, stop, ?_, ?_, ?_⟩
  · intro emitted' stop'
    constructor
    · exact greedy_unique hgreedy
    · rintro ⟨rfl, rfl⟩
      exact hgreedy
  · rw [feedAll_chunks, hscan]
  · intro before frame after hinput hframe hstop
    have hcovers := greedy_covers hgreedy ⟨after, hinput.symm⟩ hframe
      (by rwa [Nat.zero_add])
    rwa [Nat.zero_add] at hcovers

end stm32_vibe.frame_scan
