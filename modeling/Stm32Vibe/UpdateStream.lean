-- The parser of the UART bytes, against a scanner that sees the whole input at
-- once. After every byte the buffer is what the scanner would still wait with.
import Stm32Vibe.UpdateProtocol

namespace stm32_vibe.update_stream

open little_endian update_protocol

/-! ## The parser -/

/-- `update_stream_t`: the bytes of `buffer` that are in use. -/
structure UpdateStream where
  buffer : List UInt8
deriving DecidableEq, Repr

def update_stream_init : UpdateStream where
  buffer := []

def sync_at (buffer : List UInt8) (index : Nat) : Prop :=
  index + 1 < buffer.length ∧ buffer.getD index 0 = UPDATE_PROTOCOL_SYNC.toUInt8 ∧
    buffer.getD (index + 1) 0 = (UPDATE_PROTOCOL_SYNC >>> 8).toUInt8

instance (buffer : List UInt8) (index : Nat) : Decidable (sync_at buffer index) :=
  inferInstanceAs (Decidable (_ ∧ _))

def dropFirst (buffer : List UInt8) (count : Nat) : List UInt8 :=
  if count ≥ buffer.length then [] else buffer.drop count

def resync (buffer : List UInt8) : List UInt8 :=
  match (List.range buffer.length).find? (sync_at buffer) with
  | some index => dropFirst buffer index
  | none =>
    let last := buffer.getD (buffer.length - 1) 0
    if buffer.length > 0 ∧ last = UPDATE_PROTOCOL_SYNC.toUInt8 then [last] else []

def read_payload_len (buffer : List UInt8) : UInt16 :=
  packHalf (buffer.getD 6 0) (buffer.getD 7 0)

/-- What a call of `update_stream_feed` returns and writes, and the lengths of
the buffer on the entries to its loop. -/
structure FeedOut where
  status : UpdateStatus
  consumed : Nat
  stream : UpdateStream
  packet : UpdatePacket
  payload : Memory
  entries : List Nat

/-- The loop of `update_stream_feed`, from `input_index` on. -/
def feedFrom (buffer : List UInt8) (packet : UpdatePacket) (payload : Memory)
    (payload_capacity : Nat) (input_index : Nat) (entries : List Nat) : List UInt8 → FeedOut
  | [] =>
    { status := .BadLength, consumed := input_index, stream := ⟨buffer⟩, packet, payload, entries }
  | byte :: data =>
    let entries := entries ++ [buffer.length]
    let room :=
      if buffer.length = UPDATE_PROTOCOL_MAX_PACKET_SIZE then
        let synced := resync buffer
        if synced.length = UPDATE_PROTOCOL_MAX_PACKET_SIZE then [] else synced
      else buffer
    let buffer := resync (room ++ [byte])
    let input_index := input_index + 1
    if buffer.length < UPDATE_PROTOCOL_HEADER_SIZE then
      feedFrom buffer packet payload payload_capacity input_index entries data
    else
      let payload_len := (read_payload_len buffer).toNat
      if payload_len > UPDATE_PROTOCOL_MAX_PAYLOAD then
        feedFrom (resync (dropFirst buffer 1)) packet payload payload_capacity input_index entries
          data
      else
        let packet_len := UPDATE_PROTOCOL_HEADER_SIZE + payload_len + UPDATE_PROTOCOL_CRC_SIZE
        if buffer.length < packet_len then
          feedFrom buffer packet payload payload_capacity input_index entries data
        else
          let (status, packet, payload) :=
            update_protocol_decode (buffer.take packet_len) packet payload payload_capacity
          let buffer := dropFirst buffer packet_len
          if status = .Ok then
            { status, consumed := input_index, stream := ⟨buffer⟩, packet, payload, entries }
          else
            { status, consumed := input_index, stream := ⟨resync buffer⟩, packet, payload, entries }

def update_stream_feed (stream : UpdateStream) (data : List UInt8) (packet : UpdatePacket)
    (payload : Memory) (payload_capacity : Nat) : FeedOut :=
  feedFrom stream.buffer packet payload payload_capacity 0 [] data

/-! ## The scanner -/

/-- From the first sync on, or from a first half of it at the end. -/
def seek : List UInt8 → List UInt8
  | [] => []
  | [byte] => if byte = UPDATE_PROTOCOL_SYNC.toUInt8 then [byte] else []
  | byte :: next :: rest =>
    if byte = UPDATE_PROTOCOL_SYNC.toUInt8 ∧ next = (UPDATE_PROTOCOL_SYNC >>> 8).toUInt8 then
      byte :: next :: rest
    else seek (next :: rest)

theorem length_seek (bytes : List UInt8) : (seek bytes).length ≤ bytes.length := by
  fun_induction seek bytes <;> simp_all
  omega

/-- The length of the packet that the header at the front of the buffer declares. -/
def packetLen (buffer : List UInt8) : Nat := 20 + (read_payload_len buffer).toNat

/-- What decoding `input` gives: the packet, or the error status. -/
def decodeResult (input : List UInt8) : Except UpdateStatus UpdatePacket :=
  let out := update_protocol_decode input emptyPacket (fun _ => 0) UPDATE_PROTOCOL_MAX_PAYLOAD
  if out.1 = .Ok then .ok out.2.1 else .error out.1

/-- The results in a whole input, and the bytes that wait at its end. -/
def scan (bytes : List UInt8) : List (Except UpdateStatus UpdatePacket) × List UInt8 :=
  if _h : (seek bytes).length < 16 then ([], seek bytes)
  else if (read_payload_len (seek bytes)).toNat > 128 then scan ((seek bytes).drop 1)
  else if (seek bytes).length < packetLen (seek bytes) then ([], seek bytes)
  else
    let rest := scan ((seek bytes).drop (packetLen (seek bytes)))
    (decodeResult ((seek bytes).take (packetLen (seek bytes))) :: rest.1, rest.2)
termination_by bytes.length
decreasing_by
  all_goals
    have hseek := length_seek bytes
    simp only [List.length_drop, packetLen]
    omega

/-! ## Where the scanner looks -/

theorem sync_at_succ (byte : UInt8) (rest : List UInt8) (index : Nat) :
    sync_at (byte :: rest) (index + 1) ↔ sync_at rest index := by
  simp [sync_at]

theorem dropFirst_eq (buffer : List UInt8) (count : Nat) :
    dropFirst buffer count = buffer.drop count := by
  unfold dropFirst
  split
  · rw [List.drop_of_length_le ‹_›]
  · rfl

/-- Past a byte that starts no sync, `resync` goes on with the rest. -/
theorem resync_cons {byte next : UInt8} {rest : List UInt8}
    (h : ¬ sync_at (byte :: next :: rest) 0) :
    resync (byte :: next :: rest) = resync (next :: rest) := by
  have hfind : (List.range (byte :: next :: rest).length).find? (sync_at (byte :: next :: rest)) =
      ((List.range (next :: rest).length).find? (sync_at (next :: rest))).map (· + 1) := by
    rw [List.length_cons, List.range_succ_eq_map, List.find?_cons_of_neg (by simpa using h),
      List.find?_map]
    congr 2
    funext index
    exact decide_eq_decide.mpr (sync_at_succ byte (next :: rest) index)
  have hlast : (byte :: next :: rest).getD ((byte :: next :: rest).length - 1) 0 =
      (next :: rest).getD ((next :: rest).length - 1) 0 := by
    simp
  unfold resync
  rw [hfind, hlast]
  cases (List.range (next :: rest).length).find? (sync_at (next :: rest)) with
  | none => simp
  | some index => simp [dropFirst_eq]

/-- The source's loop finds what the scanner seeks. -/
theorem resync_eq_seek (buffer : List UInt8) : resync buffer = seek buffer := by
  fun_induction seek buffer with
  | case1 => rfl
  | case2 => simp [resync, sync_at]
  | case3 byte h => simp [resync, sync_at, h]
  | case4 byte next rest h =>
    have hsync : sync_at (byte :: next :: rest) 0 := ⟨by simp, h.1, h.2⟩
    unfold resync
    rw [List.length_cons, List.range_succ_eq_map, List.find?_cons_of_pos (by simpa using hsync)]
    simp [dropFirst_eq]
  | case5 byte next rest h ih =>
    have hsync : ¬ sync_at (byte :: next :: rest) 0 := fun hsync => h hsync.2
    rw [resync_cons hsync, ih]

/-- What `seek` leaves: nothing, half a sync, or bytes that start with a sync. -/
theorem seek_cases (bytes : List UInt8) : seek bytes = [] ∨
    seek bytes = [UPDATE_PROTOCOL_SYNC.toUInt8] ∨
      ∃ rest, seek bytes = UPDATE_PROTOCOL_SYNC.toUInt8 ::
        (UPDATE_PROTOCOL_SYNC >>> 8).toUInt8 :: rest := by
  fun_induction seek bytes with
  | case1 => simp
  | case2 => simp
  | case3 byte h => simp
  | case4 byte next rest h =>
    obtain ⟨rfl, rfl⟩ := h
    exact Or.inr (Or.inr ⟨rest, rfl⟩)
  | case5 byte next rest h ih => exact ih

/-- Bytes that start with a sync stay, with any bytes after them. -/
theorem seek_synced {bytes : List UInt8} (h : 2 ≤ (seek bytes).length) (more : List UInt8) :
    seek (seek bytes ++ more) = seek bytes ++ more := by
  rcases seek_cases bytes with hnil | hhalf | ⟨rest, hrest⟩
  · simp [hnil] at h
  · simp [hhalf] at h
  · simp [hrest, seek]

/-- What is skipped is skipped with any bytes after it. -/
theorem seek_append (bytes more : List UInt8) :
    seek (bytes ++ more) = seek (seek bytes ++ more) := by
  fun_induction seek bytes with
  | case1 => simp
  | case2 => simp
  | case3 byte h =>
    cases more with
    | nil => simp [seek, h]
    | cons next more => simp [seek, h]
  | case4 byte next rest h => rfl
  | case5 byte next rest h ih =>
    rw [← ih]
    simp [seek, h]

/-! ## The scanner on two inputs in a row -/

theorem scan_eq (bytes : List UInt8) :
    scan bytes =
      if (seek bytes).length < 16 then ([], seek bytes)
      else if (read_payload_len (seek bytes)).toNat > 128 then scan ((seek bytes).drop 1)
      else if (seek bytes).length < packetLen (seek bytes) then ([], seek bytes)
      else
        (decodeResult ((seek bytes).take (packetLen (seek bytes))) ::
            (scan ((seek bytes).drop (packetLen (seek bytes)))).1,
          (scan ((seek bytes).drop (packetLen (seek bytes)))).2) := by
  rw [scan]
  rfl

theorem scan_congr {bytes bytes' : List UInt8} (h : seek bytes = seek bytes') :
    scan bytes = scan bytes' := by
  rw [scan_eq bytes, scan_eq bytes', h]

theorem read_payload_len_append {buffer : List UInt8} (h : 8 ≤ buffer.length)
    (more : List UInt8) : read_payload_len (buffer ++ more) = read_payload_len buffer := by
  unfold read_payload_len
  rw [List.getD_append _ _ _ _ (by omega), List.getD_append _ _ _ _ (by omega)]

/-- Scanning on: the waiting bytes go before the new ones. -/
theorem scan_append (bytes more : List UInt8) :
    scan (bytes ++ more) = ((scan bytes).1 ++ (scan ((scan bytes).2 ++ more)).1,
      (scan ((scan bytes).2 ++ more)).2) := by
  induction hlength : bytes.length using Nat.strong_induction_on generalizing bytes with
  | _ length ih =>
    have hseek := length_seek bytes
    have hall : scan (bytes ++ more) = scan (seek bytes ++ more) := scan_congr (seek_append _ _)
    rw [hall, scan_eq bytes]
    split_ifs with hheader hlong hshort
    · simp
    · have hstay := @seek_synced bytes (by omega) more
      have hlen := read_payload_len_append (by omega : 8 ≤ (seek bytes).length) more
      rw [← ih _ (by rw [List.length_drop]; omega) ((seek bytes).drop 1) rfl, scan_eq, hstay, hlen,
        if_neg (by rw [List.length_append]; omega), if_pos hlong,
        List.drop_append_of_le_length (by omega)]
    · simp
    · have hstay := @seek_synced bytes (by omega) more
      have hlen := read_payload_len_append (by omega : 8 ≤ (seek bytes).length) more
      have hpacket : packetLen (seek bytes ++ more) = packetLen (seek bytes) := by
        unfold packetLen
        rw [hlen]
      have hrest := ih _ (by rw [List.length_drop]; unfold packetLen; omega)
        ((seek bytes).drop (packetLen (seek bytes))) rfl
      rw [scan_eq, hstay, hpacket, hlen, if_neg (by rw [List.length_append]; omega), if_neg hlong,
        if_neg (by rw [List.length_append]; omega), List.drop_append_of_le_length (by omega),
        List.take_append_of_le_length (by omega), hrest]
      simp

/-- What waits at the end of an input gives nothing alone. -/
theorem scan_waiting (bytes : List UInt8) : scan (scan bytes).2 = ([], (scan bytes).2) := by
  have happend := scan_append bytes []
  simp only [List.append_nil] at happend
  have hnone := List.self_eq_append_right.mp (congrArg Prod.fst happend)
  have hsame := congrArg Prod.snd happend
  exact Prod.ext hnone hsame.symm

theorem length_scan (bytes : List UInt8) : (scan bytes).2.length ≤ bytes.length := by
  induction hlength : bytes.length using Nat.strong_induction_on generalizing bytes with
  | _ length ih =>
    have hseek := length_seek bytes
    rw [scan_eq]
    split_ifs with hheader hlong hshort
    · simpa [hlength] using hseek
    · have hrest := ih _ (by rw [List.length_drop]; omega) ((seek bytes).drop 1) rfl
      rw [List.length_drop] at hrest
      omega
    · simpa [hlength] using hseek
    · have hrest := ih _ (by rw [List.length_drop]; unfold packetLen; omega)
        ((seek bytes).drop (packetLen (seek bytes))) rfl
      rw [List.length_drop] at hrest
      dsimp only
      omega

/-! ## One byte of the parser -/

/-- The scanner waits with all of the buffer. -/
def Waiting (buffer : List UInt8) : Prop := scan buffer = ([], buffer)

theorem waiting_nil : Waiting [] := by
  unfold Waiting
  rw [scan_eq]
  simp [seek]

/-- A waiting buffer is synced, and it holds less than its packet. -/
theorem Waiting.spec {buffer : List UInt8} (h : Waiting buffer) :
    seek buffer = buffer ∧ (16 ≤ buffer.length →
      (read_payload_len buffer).toNat ≤ 128 ∧ buffer.length < packetLen buffer) := by
  have hscan := h
  unfold Waiting at hscan
  rw [scan_eq] at hscan
  split_ifs at hscan with hheader hlong hshort
  · have hsame : seek buffer = buffer := congrArg Prod.snd hscan
    rw [hsame] at hheader
    exact ⟨hsame, by omega⟩
  · have hlength := length_scan ((seek buffer).drop 1)
    have hseek := length_seek buffer
    rw [hscan, List.length_drop] at hlength
    dsimp only at hlength
    omega
  · have hsame : seek buffer = buffer := congrArg Prod.snd hscan
    rw [hsame] at hlong hshort
    exact ⟨hsame, fun _ => ⟨by omega, hshort⟩⟩
  · cases congrArg Prod.fst hscan

theorem Waiting.length_lt {buffer : List UInt8} (h : Waiting buffer) : buffer.length < 148 := by
  by_contra hfull
  obtain ⟨hlen, hshort⟩ := h.spec.2 (by omega)
  unfold packetLen at hshort
  omega

section
variable {buffer : List UInt8} {byte : UInt8}

/-- With a header in the buffer, the next byte only goes to its end. -/
theorem Waiting.seek_concat (h : Waiting buffer) (hheader : 16 ≤ buffer.length) :
    seek (buffer ++ [byte]) = buffer ++ [byte] ∧
      read_payload_len (buffer ++ [byte]) = read_payload_len buffer := by
  have hstay := @seek_synced buffer (by rw [h.spec.1]; omega) [byte]
  rw [h.spec.1] at hstay
  exact ⟨hstay, read_payload_len_append (by omega) _⟩

/-- A header that declares too much is found when it is complete. -/
theorem Waiting.oversize (h : Waiting buffer) (hheader : ¬ (seek (buffer ++ [byte])).length < 16)
    (hlong : (read_payload_len (seek (buffer ++ [byte]))).toNat > 128) :
    scan (buffer ++ [byte]) = ([], seek ((seek (buffer ++ [byte])).drop 1)) := by
  have hnew : buffer.length < 16 := by
    by_contra hold
    obtain ⟨hstay, hlen⟩ := @Waiting.seek_concat buffer byte h (by omega)
    rw [hstay, hlen] at hlong
    have hfits := (h.spec.2 (by omega)).1
    omega
  have hseek := length_seek (buffer ++ [byte])
  have hdrop := length_seek ((seek (buffer ++ [byte])).drop 1)
  rw [List.length_append, List.length_singleton] at hseek
  rw [List.length_drop] at hdrop
  rw [scan_eq, if_neg hheader, if_pos hlong, scan_eq, if_pos (by omega)]

/-- A packet is complete with its last byte. -/
theorem Waiting.complete (h : Waiting buffer) (hheader : ¬ (seek (buffer ++ [byte])).length < 16)
    (hlong : ¬ (read_payload_len (seek (buffer ++ [byte]))).toNat > 128)
    (hshort : ¬ (seek (buffer ++ [byte])).length < packetLen (seek (buffer ++ [byte]))) :
    (seek (buffer ++ [byte])).length = packetLen (seek (buffer ++ [byte])) ∧
      scan (buffer ++ [byte]) = ([decodeResult (seek (buffer ++ [byte]))], []) := by
  have hexact : (seek (buffer ++ [byte])).length = packetLen (seek (buffer ++ [byte])) := by
    by_cases hold : 16 ≤ buffer.length
    · obtain ⟨hstay, hlen⟩ := @Waiting.seek_concat buffer byte h hold
      have hbefore := (h.spec.2 hold).2
      have hpacket : packetLen (buffer ++ [byte]) = packetLen buffer := by
        unfold packetLen
        rw [hlen]
      rw [hstay, hpacket, List.length_append, List.length_singleton] at hshort ⊢
      omega
    · have hseek := length_seek (buffer ++ [byte])
      rw [List.length_append, List.length_singleton] at hseek
      unfold packetLen at hshort
      omega
  refine ⟨hexact, ?_⟩
  have hnone : scan ([] : List UInt8) = ([], []) := waiting_nil
  rw [scan_eq, if_neg hheader, if_neg hlong, if_neg hshort, ← hexact, List.drop_length,
    List.take_length, hnone]

end

/-- The status does not depend on the packet and the payload of the caller. -/
theorem decode_status_eq (input : List UInt8) (packet packet' : UpdatePacket)
    (payload payload' : Memory) (payload_capacity : Nat) :
    (update_protocol_decode input packet payload payload_capacity).1 =
      (update_protocol_decode input packet' payload' payload_capacity).1 := by
  simp only [decode_eq, apply_ite Prod.fst]

/-- Nor does the result. -/
theorem decode_result (input : List UInt8) (packet : UpdatePacket) (payload : Memory) :
    let out := update_protocol_decode input packet payload UPDATE_PROTOCOL_MAX_PAYLOAD
    (if out.1 = .Ok then .ok out.2.1 else .error out.1) = decodeResult input := by
  intro out
  have hstatus : out.1 = _ := decode_status_eq input packet emptyPacket payload (fun _ => 0)
    UPDATE_PROTOCOL_MAX_PAYLOAD
  unfold decodeResult
  dsimp only
  rw [← hstatus]
  by_cases hok : out.1 = .Ok
  · obtain ⟨haccepts, hroom⟩ := (decode_ok_iff _ _ _ _).mp hok
    have hdecoded : out = _ := decode_accepted haccepts packet payload hroom
    rw [if_pos hok, if_pos hok, decode_accepted haccepts _ _ hroom, hdecoded]
  · rw [if_neg hok, if_neg hok]

/-- An input of the declared length is not rejected for its length. -/
theorem decode_status {input : List UInt8} (hlength : input.length = packetLen input)
    (hfits : (read_payload_len input).toNat ≤ 128) (packet : UpdatePacket) (payload : Memory) :
    (update_protocol_decode input packet payload UPDATE_PROTOCOL_MAX_PAYLOAD).1 ≠ .BadLength := by
  have hlen : read_u16_le input 6 = read_payload_len input := rfl
  unfold packetLen at hlength
  rw [decode_eq, hlen]
  split_ifs with hshort hsync hversion hlong hother hroom hcrc
  · omega
  · exact nofun
  · exact nofun
  · omega
  · omega
  · exact nofun
  · exact nofun
  · exact nofun

/-! ## One call of the parser -/

/-- What a call returned with a packet or an error. -/
def FeedOut.result (out : FeedOut) : Except UpdateStatus UpdatePacket :=
  if out.status = .Ok then .ok out.packet else .error out.status

/-- A call that starts with a waiting buffer is the scanner on the bytes it
consumes, and it stops with the byte that completes a result. -/
structure FeedSpec (buffer data : List UInt8) (input_index : Nat) (out : FeedOut) : Prop where
  entries : ∀ n ∈ out.entries, n < 148
  outcome : out.status = .BadLength ∧ out.consumed = input_index + data.length ∧
      scan (buffer ++ data) = ([], out.stream.buffer) ∨
    out.status ≠ .BadLength ∧ ∃ k, 0 < k ∧ k ≤ data.length ∧ out.consumed = input_index + k ∧
      scan (buffer ++ data.take k) = ([out.result], out.stream.buffer)

/-- A byte that completes nothing goes before the rest of the data. -/
theorem FeedSpec.cons {buffer next data : List UInt8} {byte : UInt8} {input_index : Nat}
    {out : FeedOut} (h : FeedSpec next data (input_index + 1) out)
    (hscan : scan (buffer ++ [byte]) = ([], next)) :
    FeedSpec buffer (byte :: data) input_index out := by
  have hmore : ∀ more, scan (buffer ++ byte :: more) = scan (next ++ more) := by
    intro more
    have happend := scan_append (buffer ++ [byte]) more
    rw [hscan] at happend
    simpa using happend
  refine ⟨h.entries, ?_⟩
  rcases h.outcome with ⟨hstatus, hconsumed, hrest⟩ | ⟨hstatus, k, hpos, hle, hconsumed, hrest⟩
  · refine Or.inl ⟨hstatus, ?_, ?_⟩
    · rw [hconsumed, List.length_cons]
      omega
    · rw [hmore, hrest]
  · refine Or.inr ⟨hstatus, k + 1, by omega, by simpa using hle, by omega, ?_⟩
    rw [List.take_succ_cons, hmore, hrest]

/-- One round of the loop, while the buffer is not full. -/
theorem feedFrom_cons {buffer : List UInt8} (hfull : buffer.length < 148) (packet : UpdatePacket)
    (payload : Memory) (payload_capacity input_index : Nat) (entries : List Nat) (byte : UInt8)
    (data : List UInt8) :
    feedFrom buffer packet payload payload_capacity input_index entries (byte :: data) =
      let synced := seek (buffer ++ [byte])
      let feedOn := fun next => feedFrom next packet payload payload_capacity (input_index + 1)
        (entries ++ [buffer.length]) data
      let decoded := update_protocol_decode (synced.take (packetLen synced)) packet payload
        payload_capacity
      let left := synced.drop (packetLen synced)
      if synced.length < 16 then feedOn synced
      else if (read_payload_len synced).toNat > 128 then feedOn (seek (synced.drop 1))
      else if synced.length < packetLen synced then feedOn synced
      else
        { status := decoded.1
          consumed := input_index + 1
          stream := ⟨if decoded.1 = .Ok then left else seek left⟩
          packet := decoded.2.1
          payload := decoded.2.2
          entries := entries ++ [buffer.length] } := by
  have hroom : ¬ buffer.length = UPDATE_PROTOCOL_MAX_PACKET_SIZE := Nat.ne_of_lt hfull
  have hlen : ∀ bytes : List UInt8, UPDATE_PROTOCOL_HEADER_SIZE +
      (read_payload_len bytes).toNat + UPDATE_PROTOCOL_CRC_SIZE = packetLen bytes := by
    intro bytes
    simp only [UPDATE_PROTOCOL_HEADER_SIZE, UPDATE_PROTOCOL_CRC_SIZE, packetLen]
    omega
  rw [feedFrom]
  simp only [if_neg hroom, resync_eq_seek, dropFirst_eq, hlen]
  refine if_congr Iff.rfl rfl (if_congr Iff.rfl rfl (if_congr Iff.rfl rfl ?_))
  split <;> rfl

theorem feedFrom_spec {buffer : List UInt8} (h : Waiting buffer) (packet : UpdatePacket)
    (payload : Memory) (input_index : Nat) {entries : List Nat} (hentries : ∀ n ∈ entries, n < 148)
    (data : List UInt8) :
    FeedSpec buffer data input_index (feedFrom buffer packet payload UPDATE_PROTOCOL_MAX_PAYLOAD
      input_index entries data) := by
  induction data generalizing buffer input_index entries with
  | nil =>
    refine ⟨hentries, Or.inl ⟨rfl, rfl, ?_⟩⟩
    rw [List.append_nil]
    exact h
  | cons byte data ih =>
    have hfull := h.length_lt
    have hentries' : ∀ n ∈ entries ++ [buffer.length], n < 148 := by
      intro n hn
      rcases List.mem_append.mp hn with hn | hn
      · exact hentries n hn
      · rwa [List.mem_singleton.mp hn]
    have hgoes : ∀ next, scan (buffer ++ [byte]) = ([], next) →
        FeedSpec buffer (byte :: data) input_index (feedFrom next packet payload
          UPDATE_PROTOCOL_MAX_PAYLOAD (input_index + 1) (entries ++ [buffer.length]) data) := by
      intro next hscan
      have hwaiting := scan_waiting (buffer ++ [byte])
      rw [hscan] at hwaiting
      exact (ih hwaiting _ hentries').cons hscan
    rw [feedFrom_cons hfull]
    dsimp only
    by_cases hheader : (seek (buffer ++ [byte])).length < 16
    · rw [if_pos hheader]
      apply hgoes
      rw [scan_eq, if_pos hheader]
    rw [if_neg hheader]
    by_cases hlong : (read_payload_len (seek (buffer ++ [byte]))).toNat > 128
    · rw [if_pos hlong]
      exact hgoes _ (h.oversize hheader hlong)
    rw [if_neg hlong]
    by_cases hshort : (seek (buffer ++ [byte])).length < packetLen (seek (buffer ++ [byte]))
    · rw [if_pos hshort]
      apply hgoes
      rw [scan_eq, if_neg hheader, if_neg hlong, if_pos hshort]
    · -- the packet is complete, and nothing is left of the buffer
      obtain ⟨hexact, hscan⟩ := h.complete hheader hlong hshort
      have hresult := decode_result (seek (buffer ++ [byte])) packet payload
      rw [if_neg hshort, ← hexact, List.take_length, List.drop_length]
      refine ⟨hentries', Or.inr ⟨?_, 1, by omega, by simp, rfl, ?_⟩⟩
      · exact decode_status hexact (Nat.not_lt.mp hlong) packet payload
      · rw [List.take_succ_cons, List.take_zero, hscan, ← hresult]
        simp [FeedOut.result, seek]

theorem feed_spec {stream : UpdateStream} (h : Waiting stream.buffer) (data : List UInt8)
    (packet : UpdatePacket) (payload : Memory) :
    FeedSpec stream.buffer data 0
      (update_stream_feed stream data packet payload UPDATE_PROTOCOL_MAX_PAYLOAD) :=
  feedFrom_spec h packet payload 0 (by simp) data

/-! ## Any chunks -/

/-- A call that does not report BAD_LENGTH has consumed some of its data. -/
theorem feedFrom_consumed (buffer : List UInt8) (packet : UpdatePacket) (payload : Memory)
    (payload_capacity input_index : Nat) (entries : List Nat) (data : List UInt8) :
    let out := feedFrom buffer packet payload payload_capacity input_index entries data
    out.status ≠ .BadLength → 0 < data.length ∧ input_index < out.consumed := by
  induction data generalizing buffer input_index entries with
  | nil => simp [feedFrom]
  | cons byte data ih =>
    intro out hstatus
    refine ⟨by simp, ?_⟩
    unfold out feedFrom at hstatus ⊢
    dsimp only at hstatus ⊢
    -- What is in the buffer does not matter here, only how the round ends.
    generalize resync ((if buffer.length = UPDATE_PROTOCOL_MAX_PACKET_SIZE then
      if (resync buffer).length = UPDATE_PROTOCOL_MAX_PACKET_SIZE then [] else resync buffer
      else buffer) ++ [byte]) = synced at hstatus ⊢
    split_ifs at hstatus ⊢ with hheader hlong hshort hok
    · exact Nat.lt_of_succ_lt (ih _ _ _ hstatus).2
    · exact Nat.lt_of_succ_lt (ih _ _ _ hstatus).2
    · exact Nat.lt_of_succ_lt (ih _ _ _ hstatus).2
    · exact Nat.lt_succ_self _
    · exact Nat.lt_succ_self _

/-- What a caller has after some calls: the results, and what it passes to the next call. -/
structure Reading where
  results : List (Except UpdateStatus UpdatePacket)
  stream : UpdateStream
  packet : UpdatePacket
  payload : Memory

/-- The calls for one chunk: what a call does not consume is fed again. -/
def feedChunk (reading : Reading) (chunk : List UInt8) : Reading :=
  let out := update_stream_feed reading.stream chunk reading.packet reading.payload
    UPDATE_PROTOCOL_MAX_PAYLOAD
  let next :=
    { reading with stream := out.stream, packet := out.packet, payload := out.payload }
  if _h : out.status = .BadLength then next
  else feedChunk { next with results := reading.results ++ [out.result] } (chunk.drop out.consumed)
termination_by chunk.length
decreasing_by
  have hconsumed := feedFrom_consumed reading.stream.buffer reading.packet reading.payload
    UPDATE_PROTOCOL_MAX_PAYLOAD 0 [] chunk _h
  rw [List.length_drop]
  exact Nat.sub_lt hconsumed.1 hconsumed.2

def feedChunks (reading : Reading) (chunks : List (List UInt8)) : Reading :=
  chunks.foldl feedChunk reading

/-- The caller has read `bytes`: the results are the scanner's, and the rest waits. -/
def Reads (reading : Reading) (bytes : List UInt8) : Prop :=
  scan bytes = (reading.results, reading.stream.buffer)

theorem Reads.waiting {reading : Reading} {bytes : List UInt8} (h : Reads reading bytes) :
    Waiting reading.stream.buffer := by
  have hwaiting := scan_waiting bytes
  rwa [h] at hwaiting

theorem Reads.chunk {reading : Reading} {bytes : List UInt8} (h : Reads reading bytes)
    (chunk : List UInt8) : Reads (feedChunk reading chunk) (bytes ++ chunk) := by
  induction hlength : chunk.length using Nat.strong_induction_on
    generalizing reading bytes chunk with
  | _ length ih =>
    have hspec := feed_spec h.waiting chunk reading.packet reading.payload
    have hmore : ∀ more, scan (bytes ++ more) =
        (reading.results ++ (scan (reading.stream.buffer ++ more)).1,
          (scan (reading.stream.buffer ++ more)).2) := by
      intro more
      rw [scan_append, h]
    rw [feedChunk]
    dsimp only
    rcases hspec.outcome with ⟨hstatus, -, hscan⟩ | ⟨hstatus, k, hpos, hle, hconsumed, hscan⟩
    · rw [dif_pos hstatus]
      unfold Reads
      rw [hmore, hscan]
      simp
    · rw [dif_neg hstatus, hconsumed, Nat.zero_add]
      have hnext : Reads
          { results := reading.results ++ [(update_stream_feed reading.stream chunk reading.packet
              reading.payload UPDATE_PROTOCOL_MAX_PAYLOAD).result]
            stream := (update_stream_feed reading.stream chunk reading.packet reading.payload
              UPDATE_PROTOCOL_MAX_PAYLOAD).stream
            packet := (update_stream_feed reading.stream chunk reading.packet reading.payload
              UPDATE_PROTOCOL_MAX_PAYLOAD).packet
            payload := (update_stream_feed reading.stream chunk reading.packet reading.payload
              UPDATE_PROTOCOL_MAX_PAYLOAD).payload } (bytes ++ chunk.take k) := by
        unfold Reads
        rw [hmore, hscan]
      have hrest := ih _ (by rw [List.length_drop]; omega) hnext (chunk.drop k) rfl
      rwa [List.append_assoc, List.take_append_drop] at hrest

theorem Reads.chunks {reading : Reading} {bytes : List UInt8} (h : Reads reading bytes)
    (chunks : List (List UInt8)) : Reads (feedChunks reading chunks) (bytes ++ chunks.flatten) := by
  induction chunks generalizing reading bytes with
  | nil => simpa [feedChunks] using h
  | cons chunk chunks ih =>
    have hrest := ih (h.chunk chunk)
    rw [List.append_assoc] at hrest
    simpa [feedChunks] using hrest

/-- The streams that calls with any data lead to. -/
inductive StreamReachable : UpdateStream → Prop where
  | init : StreamReachable update_stream_init
  | feed {stream : UpdateStream} (data : List UInt8) (packet : UpdatePacket) (payload : Memory)
      (reachable : StreamReachable stream) :
      StreamReachable
        (update_stream_feed stream data packet payload UPDATE_PROTOCOL_MAX_PAYLOAD).stream

theorem reachable_waiting {stream : UpdateStream} (h : StreamReachable stream) :
    Waiting stream.buffer := by
  induction h with
  | init => exact waiting_nil
  | @feed stream data packet payload reachable ih =>
    rcases (feed_spec ih data packet payload).outcome with ⟨-, -, hscan⟩ | ⟨-, k, -, -, -, hscan⟩
    · have hwaiting := scan_waiting (stream.buffer ++ data)
      rwa [hscan] at hwaiting
    · have hwaiting := scan_waiting (stream.buffer ++ data.take k)
      rwa [hscan] at hwaiting

/-- Under any cut of the input, the parser gives the results of the scanner. A
call reports BAD_LENGTH exactly when it consumes all of its data and completes
nothing, and its loop never finds the buffer full. -/
theorem stream_scans :
    (∀ (packet : UpdatePacket) (payload : Memory) (chunks : List (List UInt8)),
      (feedChunks { results := [], stream := update_stream_init, packet, payload } chunks).results =
        (scan chunks.flatten).1) ∧
    ∀ (stream : UpdateStream) (data : List UInt8) (packet : UpdatePacket) (payload : Memory),
      StreamReachable stream →
        let out := update_stream_feed stream data packet payload UPDATE_PROTOCOL_MAX_PAYLOAD
        (out.status = .BadLength ↔
          out.consumed = data.length ∧ (scan (stream.buffer ++ data)).1 = []) ∧
        ∀ n ∈ out.entries, n < UPDATE_PROTOCOL_MAX_PACKET_SIZE := by
  constructor
  · intro packet payload chunks
    have hstart : Reads { results := [], stream := update_stream_init, packet, payload } [] :=
      waiting_nil
    have hreads := hstart.chunks chunks
    rw [List.nil_append] at hreads
    exact (congrArg Prod.fst hreads).symm
  · intro stream data packet payload reachable out
    have hspec := feed_spec (reachable_waiting reachable) data packet payload
    refine ⟨?_, hspec.entries⟩
    rcases hspec.outcome with
      ⟨hstatus, hconsumed, hscan⟩ | ⟨hstatus, k, hpos, hle, hconsumed, hscan⟩
    · refine iff_of_true hstatus ⟨?_, by rw [hscan]⟩
      rw [hconsumed, Nat.zero_add]
    · refine iff_of_false hstatus ?_
      rintro ⟨-, hnone⟩
      rw [← List.take_append_drop k data, ← List.append_assoc, scan_append, hscan] at hnone
      simp at hnone

end stm32_vibe.update_stream
