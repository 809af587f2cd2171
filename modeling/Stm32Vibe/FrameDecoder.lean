-- The decoder of the trace records on the host: the loop over its buffer is a
-- scan of the stream from the front.
import Stm32Vibe.Lib.LittleEndian
import Stm32Vibe.Lib.StreamScanner

namespace stm32_vibe.frame_decoder

open little_endian stream_scanner

/-! ## The decoder -/

def TRACE_SYNC : List UInt8 := [0xA5, 0x5A]

def TRACE_VERSION : UInt8 := 1

def TRACE_MAX_ARGS : UInt8 := 4

/-- One bit of `crc8`, on integers of eight bits. -/
def crc8Bit (crc : UInt8) : UInt8 :=
  if crc &&& 0x80 ≠ 0 then ((crc <<< 1) ^^^ 0x07) &&& 0xFF else (crc <<< 1) &&& 0xFF

def crc8 (data : List UInt8) : UInt8 :=
  data.foldl (fun crc value => Nat.repeat crc8Bit 8 (crc ^^^ value)) 0

/-- An event id with its arguments. -/
abbrev Record := UInt16 × List UInt32

/-- `struct.unpack_from("<I", frame, 6 + (index * 4))`. -/
def unpackArg (frame : List UInt8) (index : Nat) : UInt32 :=
  readWord (fun i => frame.getD i 0) (6 + index * 4)

/-- What the decoder does with a buffer that starts with the marker: wait, or
go on with what it found and the bytes after it. -/
def checkFrame (buffer : List UInt8) : Option (List Record × Nat) :=
  if buffer.length < 7 then none
  else
    let version := buffer.getD 2 0
    let event_id := packHalf (buffer.getD 3 0) (buffer.getD 4 0)
    let arg_count := buffer.getD 5 0
    if version ≠ TRACE_VERSION ∨ arg_count > TRACE_MAX_ARGS then some ([], 1)
    else
      let frame_size := 7 + arg_count.toNat * 4
      if buffer.length < frame_size then none
      else
        let frame := buffer.take frame_size
        if crc8 (frame.drop 2).dropLast ≠ frame.getLastD 0 then some ([], 1)
        else some ([(event_id, (List.range arg_count.toNat).map (unpackArg frame))], frame_size)

/-- `buffer.find(TRACE_SYNC)`. -/
def findSync : List UInt8 → Option Nat
  | first :: second :: rest =>
    if [first, second] = TRACE_SYNC then some 0 else (findSync (second :: rest)).map (· + 1)
  | _ => none

/-- One turn of the loop: it stops with a buffer, or goes on with one. -/
inductive Turn where
  | stop (buffer : List UInt8)
  | go (records : List Record) (buffer : List UInt8)

def turn (buffer : List UInt8) : Turn :=
  match findSync buffer with
  | none =>
    .stop (if buffer.drop (buffer.length - 1) = TRACE_SYNC.take 1 then
      buffer.drop (buffer.length - 1) else [])
  | some sync_index =>
    let buffer := buffer.drop sync_index
    match checkFrame buffer with
    | none => .stop buffer
    | some (records, size) => .go records (buffer.drop size)

theorem checkFrame_bounds {buffer : List UInt8} {records : List Record} {size : Nat}
    (h : checkFrame buffer = some (records, size)) : 0 < size ∧ size ≤ buffer.length := by
  unfold checkFrame at h
  split at h
  · cases h
  · dsimp only at h
    split at h
    · cases h
      omega
    · split at h
      · cases h
      · split at h
        · cases h
          omega
        · cases h
          omega

theorem findSync_lt {buffer : List UInt8} {sync_index : Nat}
    (h : findSync buffer = some sync_index) : sync_index < buffer.length := by
  induction buffer using findSync.induct generalizing sync_index with
  | case1 first second rest heq =>
    rw [findSync, if_pos heq] at h
    cases h
    simp
  | case2 first second rest hne ih =>
    rw [findSync, if_neg hne] at h
    obtain ⟨k, hk, rfl⟩ := Option.map_eq_some_iff.mp h
    have hlt := ih hk
    simp only [List.length_cons] at *
    omega
  | case3 buffer hshort => simp [findSync] at h

theorem turn_shrinks {buffer rest : List UInt8} {records : List Record}
    (h : turn buffer = .go records rest) : rest.length < buffer.length := by
  unfold turn at h
  split at h
  · cases h
  · rename_i sync_index hfind
    have hlt := findSync_lt hfind
    dsimp only at h
    split at h
    · cases h
    · rename_i hcheck
      obtain ⟨hpos, hle⟩ := checkFrame_bounds hcheck
      cases h
      simp only [List.length_drop] at *
      omega

/-- The loop of `feed`: the records, and the buffer that it leaves. -/
def decodeLoop (buffer : List UInt8) : List Record × List UInt8 :=
  match _h : turn buffer with
  | .stop rest => ([], rest)
  | .go records rest => (records ++ (decodeLoop rest).1, (decodeLoop rest).2)
termination_by buffer.length
decreasing_by
  all_goals exact turn_shrinks _h

structure FrameDecoder where
  buffer : List UInt8

def FrameDecoder.init : FrameDecoder where
  buffer := []

def FrameDecoder.feed (decoder : FrameDecoder) (data : List UInt8) : List Record × FrameDecoder :=
  let (records, buffer) := decodeLoop (decoder.buffer ++ data)
  (records, { buffer })

/-- The records of a row of chunks. -/
def FrameDecoder.feedAll : FrameDecoder → List (List UInt8) → List Record
  | _, [] => []
  | decoder, data :: chunks => (decoder.feed data).1 ++ (decoder.feed data).2.feedAll chunks

/-! ## The scan -/

/-- What stands at the front of a stream: an end that may go on, a byte that
starts no marker, or a marker. -/
def front (input : List UInt8) : Option (List Record × Nat) :=
  if input = [] ∨ input = TRACE_SYNC.take 1 then none
  else if input.take 2 ≠ TRACE_SYNC then some ([], 1)
  else checkFrame input

theorem checkFrame_append {input : List UInt8} {records : List Record} {size : Nat}
    (more : List UInt8) (h : checkFrame input = some (records, size)) :
    checkFrame (input ++ more) = some (records, size) := by
  unfold checkFrame at h ⊢
  split at h
  · cases h
  · rename_i hlength
    have hlonger : ¬ (input ++ more).length < 7 := by
      rw [List.length_append]
      omega
    rw [if_neg hlonger, List.getD_append _ _ _ _ (by omega), List.getD_append _ _ _ _ (by omega),
      List.getD_append _ _ _ _ (by omega), List.getD_append _ _ _ _ (by omega)]
    dsimp only at h ⊢
    split at h
    · rename_i hreject
      rw [if_pos hreject]
      exact h
    · rename_i haccept
      rw [if_neg haccept]
      split at h
      · cases h
      · rename_i hsize
        have hlonger' : ¬ (input ++ more).length < 7 + (input.getD 5 0).toNat * 4 := by
          rw [List.length_append]
          omega
        rw [if_neg hlonger', List.take_append_of_le_length (by omega)]
        exact h

theorem front_pos_le {input : List UInt8} {records : List Record} {size : Nat}
    (h : front input = some (records, size)) : 0 < size ∧ size ≤ input.length := by
  unfold front at h
  split at h
  · cases h
  · rename_i hmore
    split at h
    · cases h
      have hne : input ≠ [] := fun hnil => hmore (Or.inl hnil)
      exact ⟨Nat.one_pos, List.length_pos_iff.mpr hne⟩
    · exact checkFrame_bounds h

theorem front_append {input : List UInt8} {records : List Record} {size : Nat}
    (more : List UInt8) (h : front input = some (records, size)) :
    front (input ++ more) = some (records, size) := by
  unfold front at h ⊢
  match input with
  | [] => simp at h
  | [first] =>
    have hfirst : first ≠ 0xA5 := by
      rintro rfl
      simp [TRACE_SYNC] at h
    cases more with
    | nil => simpa using h
    | cons second more => simpa [TRACE_SYNC, hfirst] using h
  | first :: second :: rest =>
    have hlong : ¬ (first :: second :: rest ++ more = [] ∨
        first :: second :: rest ++ more = TRACE_SYNC.take 1) := by simp [TRACE_SYNC]
    have hshort : ¬ (first :: second :: rest = [] ∨
        first :: second :: rest = TRACE_SYNC.take 1) := by simp [TRACE_SYNC]
    have htake : (first :: second :: rest ++ more).take 2 = (first :: second :: rest).take 2 := rfl
    rw [if_neg hshort] at h
    rw [if_neg hlong, htake]
    split at h
    · rename_i hsync
      rw [if_pos hsync]
      exact h
    · rename_i hsync
      rw [if_neg hsync]
      exact checkFrame_append more h

/-- The scan of a stream for records. -/
def scanner : Scanner UInt8 Record where
  front := front
  front_pos h := (front_pos_le h).1
  front_le h := (front_pos_le h).2
  front_append := front_append

/-- A byte that starts no marker is skipped. -/
theorem scan_skip {first second : UInt8} {rest : List UInt8}
    (h : [first, second] ≠ TRACE_SYNC) :
    scan scanner (first :: second :: rest) = scan scanner (second :: rest) := by
  have hfront : scanner.front (first :: second :: rest) = some ([], 1) := by
    show front _ = _
    unfold front
    rw [if_neg (by simp [TRACE_SYNC]), if_pos (by simpa using h)]
  rw [scan_eat scanner hfront]
  rfl

theorem scan_of_none {buffer : List UInt8} (h : findSync buffer = none) :
    scan scanner buffer =
      ([], if buffer.drop (buffer.length - 1) = TRACE_SYNC.take 1 then
        buffer.drop (buffer.length - 1) else []) := by
  induction buffer using findSync.induct with
  | case1 first second rest heq => simp [findSync, heq] at h
  | case2 first second rest hne ih =>
    rw [findSync, if_neg hne, Option.map_eq_none_iff] at h
    have hdrop : (first :: second :: rest).drop ((first :: second :: rest).length - 1) =
        (second :: rest).drop ((second :: rest).length - 1) := rfl
    rw [scan_skip hne, ih h, hdrop]
  | case3 buffer hshort =>
    match buffer with
    | [] => simp [TRACE_SYNC]
    | [first] =>
      by_cases hfirst : first = 0xA5
      · rw [hfirst]
        exact scan_wait scanner rfl
      · have hfront : scanner.front [first] = some ([], 1) := by
          show front _ = _
          simp [front, TRACE_SYNC, hfirst]
        rw [scan_eat scanner hfront]
        simp [TRACE_SYNC, hfirst]
    | first :: second :: rest => exact absurd rfl (hshort first second rest)

theorem scan_of_some {buffer : List UInt8} {sync_index : Nat}
    (h : findSync buffer = some sync_index) :
    scan scanner buffer = scan scanner (buffer.drop sync_index) ∧
      (buffer.drop sync_index).take 2 = TRACE_SYNC := by
  induction buffer using findSync.induct generalizing sync_index with
  | case1 first second rest heq =>
    rw [findSync, if_pos heq] at h
    cases h
    exact ⟨rfl, heq⟩
  | case2 first second rest hne ih =>
    rw [findSync, if_neg hne] at h
    obtain ⟨k, hk, rfl⟩ := Option.map_eq_some_iff.mp h
    rw [scan_skip hne, List.drop_succ_cons]
    exact ih hk
  | case3 buffer hshort => simp [findSync] at h

theorem front_sync {buffer : List UInt8} (h : buffer.take 2 = TRACE_SYNC) :
    scanner.front buffer = checkFrame buffer := by
  show front buffer = _
  have hlong : ¬ (buffer = [] ∨ buffer = TRACE_SYNC.take 1) := by
    rintro (rfl | rfl) <;> exact absurd h (by decide)
  rw [front, if_neg hlong, if_neg (not_not.mpr h)]

/-- The loop is the scan. -/
theorem decodeLoop_eq (buffer : List UInt8) : decodeLoop buffer = scan scanner buffer := by
  induction buffer using decodeLoop.induct with
  | case1 buffer rest hturn =>
    rw [decodeLoop]
    split
    · rename_i hstop
      rw [hstop] at hturn
      cases hturn
      unfold turn at hstop
      split at hstop
      · rename_i hfind
        cases hstop
        rw [scan_of_none hfind]
      · rename_i hfind
        obtain ⟨hdrop, htake⟩ := scan_of_some hfind
        dsimp only at hstop
        split at hstop
        · rename_i hwait
          cases hstop
          rw [hdrop, scan_wait scanner ((front_sync htake).trans hwait)]
        · cases hstop
    · rename_i hgo
      rw [hgo] at hturn
      cases hturn
  | case2 buffer records rest hturn ih =>
    rw [decodeLoop]
    split
    · rename_i hstop
      rw [hstop] at hturn
      cases hturn
    · rename_i hgo
      rw [hgo] at hturn
      cases hturn
      unfold turn at hgo
      split at hgo
      · cases hgo
      · rename_i hfind
        obtain ⟨hdrop, htake⟩ := scan_of_some hfind
        dsimp only at hgo
        split at hgo
        · cases hgo
        · rename_i heat
          cases hgo
          rw [hdrop, scan_eat scanner ((front_sync htake).trans heat), ih]

theorem feedAll_scan (decoder : FrameDecoder) (chunks : List (List UInt8)) :
    decoder.feedAll chunks = (stream_scanner.feedAll scanner decoder.buffer chunks).1 := by
  induction chunks generalizing decoder with
  | nil => rfl
  | cons data chunks ih =>
    have hfeed : decoder.feed data = ((scan scanner (decoder.buffer ++ data)).1,
        ⟨(scan scanner (decoder.buffer ++ data)).2⟩) := by
      rw [FrameDecoder.feed, decodeLoop_eq]
    rw [FrameDecoder.feedAll, ih, hfeed]
    rfl

/-- However the stream is cut, the records are those of the scan. -/
theorem feedAll_chunks (chunks : List (List UInt8)) :
    FrameDecoder.init.feedAll chunks = (scan scanner chunks.flatten).1 := by
  rw [feedAll_scan]
  exact congrArg Prod.fst (feedAll_flatten scanner chunks)

end stm32_vibe.frame_decoder
